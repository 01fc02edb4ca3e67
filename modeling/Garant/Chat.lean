import Garant.Operations
/-!
# The chat of a deal

`upload_media`, `create_message`, `list_messages` and the clean-up of
`delete_deal`, over the tables of messages and media and the files on disk. The
clean-up removes every media row that a message of the deal names, whoever else
names it. `delete_keeps_chats_iff` says when the other chats survive.
-/

namespace Garant

/-- An item of a JSON list; `other` is what `int` makes of anything that is neither an integer nor a boolean. -/
inductive JsonItem
  | bool (b : Bool)
  | int (i : ℤ)
  | other (as_int : Option ℤ)
deriving DecidableEq

/-- The text of `attachments_json`, as `json.loads` reads it. -/
inductive AttachmentsJson
  | list (items : List JsonItem)
  | other
deriving DecidableEq

structure DealMessage where
  deal_id : ℕ
  sender_id : ℕ
  text : String
  attachments_json : Option AttachmentsJson
  created_at : Time
deriving DecidableEq

/-- An uploaded file; its URL is kept split at the slashes. -/
structure Media where
  owner_id : ℕ
  kind : String
  url : List String
  name : String
  size : ℕ
  content_type : String
  created_at : Time
deriving DecidableEq

/-- The database with its chats, and the files under `media_root`, by kind and name. -/
structure Chat where
  db : Db
  messages : Table DealMessage
  media : Table Media
  files : Finset (String × String)

/-- `CurrentUser`. -/
structure ChatUser where
  id : ℕ
  is_admin : Bool
  is_arbiter : Bool

/-! ## Uploads -/

/-- `media_allowed_kinds` and `media_base_url`. -/
structure MediaSettings where
  allowed_kinds : List String
  base_url : List String

/-- `_safe_extension`. -/
def safeExtension (content_type : String) : Option String :=
  if content_type = "image/png" then some ".png"
  else if content_type = "image/jpeg" then some ".jpg"
  else if content_type = "image/webp" then some ".webp"
  else if content_type = "image/gif" then some ".gif"
  else none

/-- An upload as the handler gets it. `image` is the size of the re-encoded file,
or what the checks of its bytes raise; `stamp` and `token` make its name on disk. -/
structure Upload where
  kind : String
  content_type : String
  image : Result ℕ
  display_name : String
  stamp : String
  token : String

/-- The name on disk. -/
def Upload.name (u : Upload) (user_id : ℕ) (ext : String) : String := s!"{user_id}-{u.stamp}-{u.token}{ext}"

def uploadMedia (cfg : MediaSettings) (c : Chat) (user_id : ℕ) (u : Upload) (now : Time) : Result Chat := do
  raiseIf (u.kind ∉ cfg.allowed_kinds) (.http 400 s!"Недопустимый kind: {u.kind}")
  let ext ← orRaise (safeExtension u.content_type) (.http 415 "Допустимы только PNG / JPEG / WebP / GIF")
  let size ← u.image
  let name := u.name user_id ext
  let media : Media := ⟨user_id, u.kind, cfg.base_url ++ [u.kind, name], u.display_name, size, u.content_type, now⟩
  pure { c with files := insert (u.kind, name) c.files, media := c.media.insert media }

/-- `url.split("/")[-1]`, in the folder of its kind. -/
def Media.path (m : Media) : String × String := (m.kind, m.url.getLastD "")

/-! ## Messages -/

/-- `_parse_attachment_ids`. -/
def parseAttachmentIds (attachments_json : Option AttachmentsJson) : List ℤ :=
  match attachments_json with
  | some (.list items) => items.filterMap fun
    | .bool _ => none
    | .int i => some i
    | .other as_int => as_int
  | some .other => []
  | none => []

/-- `select(Media).where(Media.id == id)`. -/
def Chat.mediaById (c : Chat) (id : ℤ) : Option Media := id.toNat?.bind c.media.row

/-- `_load_deal_or_403`. -/
def loadDealOr403 (db : Db) (deal_id : ℕ) (user : ChatUser) : Result Deal := do
  let deal ← getDeal db deal_id
  let is_participant := user.id = deal.buyer_id ∨ user.id = deal.seller_id
  let is_staff := user.is_admin ∨ user.is_arbiter
  raiseIf (¬(is_participant ∨ is_staff)) (.http 403 "Нет доступа к чату этой сделки")
  pure deal

/-- `TERMINAL_DEAL_STATUSES`. -/
def terminalDealStatuses : List DealStatus :=
  [.cancelled, .completed, .resolved_for_buyer, .resolved_for_seller, .cancelled_for_inactivity]

/-- Whether `create_message` finds the chat closed. -/
def chatClosed (deal : Deal) (user : ChatUser) : Bool :=
  deal.status ∈ terminalDealStatuses &&
    !((user.is_admin || user.is_arbiter) && deal.status ∈ [DealStatus.resolved_for_buyer, .resolved_for_seller])

/-- One attachment of a new message: an upload of the sender, made for deals. -/
def checkAttachment (c : Chat) (user : ChatUser) (raw : ℤ) : Result ℤ := do
  let media ← orRaise (c.mediaById raw) (.http 400 s!"Вложение {raw} не найдено")
  raiseIf (media.owner_id ≠ user.id) (.http 400 s!"Вложение {raw} принадлежит другому пользователю")
  raiseIf (media.kind ≠ "deal") (.http 400 s!"Вложение {raw} имеет недопустимый kind")
  pure raw

def createMessage (c : Chat) (user : ChatUser) (deal_id : ℕ) (text : String) (attachments : List ℤ) (now : Time) :
    Result Chat := do
  raiseIf (4000 < text.length) (.http 422 "Сообщение слишком длинное (≤4000)")
  raiseIf (10 < attachments.length) (.http 422 "Не больше 10 вложений за сообщение")
  let deal ← loadDealOr403 c.db deal_id user
  raiseIf (chatClosed deal user = true) (.http 409 "Чат сделки закрыт")
  let text := strip text
  raiseIf (text = "" ∧ attachments = []) (.http 400 "Сообщение не может быть пустым")
  let attachment_ids ← attachments.mapM (checkAttachment c user)
  let attachments_json := if attachment_ids = [] then none else some (.list (attachment_ids.map .int))
  pure { c with messages := c.messages.insert ⟨deal_id, user.id, text, attachments_json, now⟩ }

structure MediaOut where
  id : ℤ
  kind : String
  url : List String
  name : String
  size : ℕ
  content_type : String
  created_at : Time
deriving DecidableEq

structure DealMessageOut where
  id : ℕ
  deal_id : ℕ
  sender_id : ℕ
  text : String
  attachments : List MediaOut
  created_at : Time
deriving DecidableEq

section
variable (sign : List String → String → List String)

/-- `_media_out`; `sign` is `signed_media_url`, of the URL and the kind. -/
def mediaOut (id : ℤ) (m : Media) : MediaOut := ⟨id, m.kind, sign m.url m.kind, m.name, m.size, m.content_type, m.created_at⟩

/-- `_serialize_one`. -/
def serializeOne (c : Chat) (id : ℕ) (msg : DealMessage) : DealMessageOut :=
  ⟨id, msg.deal_id, msg.sender_id, msg.text,
    (parseAttachmentIds msg.attachments_json).filterMap fun mid => (c.mediaById mid).map (mediaOut sign mid), msg.created_at⟩

/-- The ids of a page, oldest first: the last `limit` before the cursor. -/
def Chat.page (c : Chat) (deal_id limit : ℕ) (before_id : Option ℕ) : List ℕ :=
  let ids := (c.messages.ids fun m => m.deal_id = deal_id).filter fun i => before_id.all (i < ·)
  (ids.reverse.take limit).reverse

def listMessages (c : Chat) (deal_id : ℕ) (user : ChatUser) (limit : ℕ) (before_id : Option ℕ) :
    Result (List DealMessageOut) := do
  let _ ← loadDealOr403 c.db deal_id user
  pure ((c.page deal_id limit before_id).filterMap fun i => (c.messages.row i).map (serializeOne sign c i))
end

/-! ## Deleting a deal -/

/-- The ids that the messages of a deal name. -/
def Chat.allMediaIds (c : Chat) (deal_id : ℕ) : List ℤ :=
  (c.messages.ids fun m => m.deal_id = deal_id).flatMap fun i =>
    (c.messages.row i).elim [] fun m => parseAttachmentIds m.attachments_json

/-- `delete_deal` with its media clean-up; `unlinked` says which files `unlink` really removes. -/
def deleteDealChat (c : Chat) (deal_id : ℕ) (unlinked : String × String → Bool) : Result Chat := do
  let db ← deleteDeal c.db deal_id
  let media_ids := (c.allMediaIds deal_id).filterMap Int.toNat?
  let paths_to_delete := (media_ids.filterMap c.media.row).map Media.path
  pure
    { db
      messages := c.messages.eraseAll (c.messages.ids fun m => m.deal_id = deal_id)
      media := c.media.eraseAll media_ids
      files := c.files.filter fun p => ¬(p ∈ paths_to_delete ∧ unlinked p) }

/-! ## The states of the chats -/

inductive ChatEvent
  | upload (user_id : ℕ) (u : Upload) (now : Time)
  | post (user : ChatUser) (deal_id : ℕ) (text : String) (attachments : List ℤ) (now : Time)
  | delete (deal_id : ℕ) (unlinked : String × String → Bool)
  | other

/-- One request. What else changes the database deletes no deal. -/
inductive ChatStep (cfg : MediaSettings) : ChatEvent → Chat → Chat → Prop
  | upload {c c' : Chat} {user_id : ℕ} {u : Upload} {now : Time} (h : uploadMedia cfg c user_id u now = .ok c') :
      ChatStep cfg (.upload user_id u now) c c'
  | post {c c' : Chat} {user : ChatUser} {deal_id : ℕ} {text : String} {attachments : List ℤ} {now : Time}
      (h : createMessage c user deal_id text attachments now = .ok c') :
      ChatStep cfg (.post user deal_id text attachments now) c c'
  | delete {c c' : Chat} {deal_id : ℕ} {unlinked : String × String → Bool} (h : deleteDealChat c deal_id unlinked = .ok c') :
      ChatStep cfg (.delete deal_id unlinked) c c'
  | other {c : Chat} {db : Db} (h : ∀ i, (c.db.deals.row i).isSome → (db.deals.row i).isSome) :
      ChatStep cfg .other c { c with db }

/-- `secrets.token_hex` does not repeat: a new file has a name of its own. -/
def NewName : ChatEvent → Chat → Prop
  | .upload user_id u _, c => ∀ ext, safeExtension u.content_type = some ext → (u.kind, u.name user_id ext) ∉ c.files
  | _, _ => True

variable {cfg : MediaSettings} {c c' c₀ : Chat} {user : ChatUser} {user_id deal_id k : ℕ} {u : Upload} {now : Time}
  {text : String} {attachments : List ℤ} {unlinked : String × String → Bool} {sign : List String → String → List String}
  {e : ChatEvent} {i : ℕ} {m : DealMessage}

/-- Messages are about deals, and every media row has a file of its own. -/
structure Chat.Inv (c : Chat) : Prop where
  about : ∀ i m, c.messages.row i = some m → (c.db.deals.row m.deal_id).isSome
  stored : ∀ i m, c.media.row i = some m → m.path ∈ c.files
  apart : ∀ i j m n, c.media.row i = some m → c.media.row j = some n → m.path = n.path → i = j

/-- No message, media row or file yet. -/
structure Chat.Empty (c : Chat) : Prop where
  messages : ∀ i, c.messages.row i = none
  media : ∀ i, c.media.row i = none

theorem Chat.Empty.inv (h : c.Empty) : c.Inv where
  about i m hm := by simp [h.messages] at hm
  stored i m hm := by simp [h.media] at hm
  apart i j m n hm := by simp [h.media] at hm

theorem uploadMedia_ok (h : uploadMedia cfg c user_id u now = .ok c') :
    ∃ ext size, safeExtension u.content_type = some ext ∧
      c' = { c with
        files := insert (u.kind, u.name user_id ext) c.files
        media := c.media.insert ⟨user_id, u.kind, cfg.base_url ++ [u.kind, u.name user_id ext], u.display_name, size,
          u.content_type, now⟩ } := by
  simp only [uploadMedia, bind_ok, raiseIf_ok, orRaise_ok, pure_ok] at h
  obtain ⟨-, -, ext, hext, size, -, rfl⟩ := h
  exact ⟨ext, size, hext, rfl⟩

theorem createMessage_ok (h : createMessage c user deal_id text attachments now = .ok c') :
    ∃ d m, c.db.deals.row deal_id = some d ∧ m.deal_id = deal_id ∧ c' = { c with messages := c.messages.insert m } := by
  simp only [createMessage, loadDealOr403, getDeal, bind_ok, raiseIf_ok, orRaise_ok, pure_ok] at h
  obtain ⟨-, -, -, -, d, ⟨d', hd, -, -, rfl⟩, -, -, -, -, ids, -, rfl⟩ := h
  exact ⟨d', _, hd, rfl, rfl⟩

/-- Nothing but the deal itself goes from the table of deals. -/
theorem deleteDeal_deals {db db' : Db} (h : deleteDeal db k = .ok db') : db'.deals = db.deals.erase k := by
  obtain ⟨d, -, ⟨-, rfl⟩ | ⟨-, amt, bal, db₁, -, -, -, hm, rfl⟩⟩ := deleteDeal_ok h
  · rfl
  · show db₁.deals.erase k = _
    rw [hm.deals]

theorem deleteDealChat_ok (h : deleteDealChat c k unlinked = .ok c') :
    c'.db.deals = c.db.deals.erase k ∧ (∀ i, c'.messages.row i = (c.messages.row i).filter fun m => m.deal_id ≠ k) ∧
      (∀ i, c'.media.row i = if (i : ℤ) ∈ c.allMediaIds k then none else c.media.row i) ∧
      c'.messages.next = c.messages.next ∧
      ∀ p, p ∈ c'.files ↔ p ∈ c.files ∧
        ¬((∃ (i : ℕ) (n : Media), (i : ℤ) ∈ c.allMediaIds k ∧ c.media.row i = some n ∧ n.path = p) ∧ unlinked p) := by
  simp only [deleteDealChat, bind_ok, pure_ok] at h
  obtain ⟨db, hdb, rfl⟩ := h
  have hids : ∀ i : ℕ, i ∈ (c.allMediaIds k).filterMap Int.toNat? ↔ (i : ℤ) ∈ c.allMediaIds k := by
    intro i
    rw [List.mem_filterMap]
    constructor
    · rintro ⟨x, hx, hi⟩
      rwa [← Int.mem_toNat?.1 hi]
    · intro hi
      exact ⟨_, hi, Int.mem_toNat?.2 rfl⟩
  refine ⟨deleteDeal_deals hdb, fun i => ?_, fun i => ?_, Table.eraseAll_next _, fun p => ?_⟩
  · rw [Table.eraseAll_row]
    cases hm : c.messages.row i with
    | none => simp
    | some m =>
      by_cases hk : m.deal_id = k
      · rw [if_pos (Table.mem_ids.2 ⟨m, hm, by simpa using hk⟩)]
        simp [Option.filter, hk]
      · rw [if_neg]
        · simp [Option.filter, hk]
        · intro hi
          obtain ⟨m', hm', hk'⟩ := Table.mem_ids.1 hi
          rw [hm] at hm'
          cases hm'
          exact hk (by simpa using hk')
  · rw [Table.eraseAll_row]
    simp only [hids]
  · simp only [Finset.mem_filter, List.mem_map, List.mem_filterMap, hids]
    refine and_congr_right fun _ => not_congr (and_congr_left fun _ => ?_)
    constructor
    · rintro ⟨n, ⟨i, hi, hn⟩, hp⟩
      exact ⟨i, n, hi, hn, hp⟩
    · rintro ⟨i, n, hi, hn, hp⟩
      exact ⟨n, ⟨i, hi, hn⟩, hp⟩

theorem Chat.Inv.step (h : c.Inv) (hok : NewName e c) (hs : ChatStep cfg e c c') : c'.Inv := by
  cases hs with
  | upload hup =>
    obtain ⟨ext, size, hext, rfl⟩ := uploadMedia_ok hup
    have hnew := hok ext hext
    refine ⟨h.about, fun i n hn => ?_, fun i j n n' hn hn' hp => ?_⟩
    · rw [Table.insert_row] at hn
      split at hn
      · cases hn
        simp [Media.path]
      · exact Finset.mem_insert_of_mem (h.stored i n hn)
    · -- The new row is the only one with the new path.
      have hother : ∀ (l : ℕ) (x : Media), c.media.row l = some x → x.path ≠ (_, _) := fun l x hx heq =>
        hnew (heq ▸ h.stored l x hx)
      rw [Table.insert_row] at hn hn'
      split at hn <;> split at hn'
      · simp_all
      · cases hn
        exact absurd (by simpa [Media.path] using hp.symm) (hother j n' hn')
      · cases hn'
        exact absurd (by simpa [Media.path] using hp) (hother i n hn)
      · exact h.apart i j n n' hn hn' hp
  | post hpost =>
    obtain ⟨d, m, hd, rfl, rfl⟩ := createMessage_ok hpost
    refine ⟨fun i x hx => ?_, h.stored, h.apart⟩
    rw [Table.insert_row] at hx
    split at hx
    · cases hx
      rw [hd]
      rfl
    · exact h.about i x hx
  | @delete _ _ k _ hdel =>
    obtain ⟨hdeals, hmessages, hmedia, -, hfiles⟩ := deleteDealChat_ok hdel
    have hold : ∀ i n, c'.media.row i = some n → (i : ℤ) ∉ c.allMediaIds k ∧ c.media.row i = some n := by
      intro i n hn
      rw [hmedia] at hn
      split at hn
      · cases hn
      · exact ⟨‹_›, hn⟩
    refine ⟨fun i m hm => ?_, fun i n hn => ?_, fun i j n n' hn hn' hp => ?_⟩
    · rw [hmessages, Option.filter_eq_some_iff] at hm
      rw [hdeals, Table.erase_row, if_neg (by simpa using hm.2)]
      exact h.about i m hm.1
    · obtain ⟨hkept, hn⟩ := hold i n hn
      refine (hfiles _).2 ⟨h.stored i n hn, ?_⟩
      rintro ⟨⟨j, n', hj, hn', hp⟩, -⟩
      exact hkept (h.apart j i n' n hn' hn hp ▸ hj)
    · exact h.apart i j n n' (hold i n hn).2 (hold j n' hn').2 hp
  | other hkeep => exact ⟨fun i m hm => hkeep _ (h.about i m hm), h.stored, h.apart⟩

theorem chat_inv (h0 : c₀.Empty) (h : Reach (ChatStep cfg) NewName c₀ c) : c.Inv :=
  h.invariant h0.inv fun _ _ _ hinv hok hs => hinv.step hok hs

/-! ## The other chats -/

/-- What deleting the deal is to leave alone: every page of every other chat, and
the files that the remaining messages name. -/
structure KeepsChats (sign : List String → String → List String) (k : ℕ) (c c' : Chat) : Prop where
  pages : ∀ deal_id, deal_id ≠ k → ∀ user limit before_id,
    listMessages sign c' deal_id user limit before_id = listMessages sign c deal_id user limit before_id
  files : ∀ i m, c'.messages.row i = some m → ∀ id ∈ parseAttachmentIds m.attachments_json, ∀ n,
    c.mediaById id = some n → n.path ∈ c'.files

/-- No message of another deal names an upload that a message of the deal names. -/
def NothingShared (c : Chat) (k : ℕ) : Prop :=
  ∀ i m, c.messages.row i = some m → m.deal_id ≠ k → ∀ id ∈ parseAttachmentIds m.attachments_json,
    id ∈ c.allMediaIds k → c.mediaById id = none

theorem mediaById_natCast : c.mediaById (i : ℤ) = c.media.row i := rfl

theorem mediaById_eq_some {id : ℤ} {n : Media} (h : c.mediaById id = some n) : ∃ j : ℕ, id = j ∧ c.media.row j = some n := by
  obtain ⟨j, hj, hn⟩ := Option.bind_eq_some_iff.1 h
  exact ⟨j, (Int.mem_toNat?.1 hj), hn⟩

/-- What the media resolve to after the clean-up. -/
theorem mediaById_delete (h : deleteDealChat c k unlinked = .ok c') (id : ℤ) :
    c'.mediaById id = if id ∈ c.allMediaIds k then none else c.mediaById id := by
  obtain ⟨-, -, hmedia, -⟩ := deleteDealChat_ok h
  cases hid : id.toNat? with
  | none => simp [Chat.mediaById, hid]
  | some j =>
    obtain rfl := Int.mem_toNat?.1 hid
    rw [mediaById_natCast, hmedia, mediaById_natCast]

/-- The messages of other deals stay. -/
theorem page_delete (h : deleteDealChat c k unlinked = .ok c') (hk : deal_id ≠ k) {limit : ℕ} {before_id : Option ℕ} :
    c'.page deal_id limit before_id = c.page deal_id limit before_id := by
  obtain ⟨-, hmessages, -, hnext, -⟩ := deleteDealChat_ok h
  have hids : c'.messages.ids (fun m => m.deal_id = deal_id) = c.messages.ids fun m => m.deal_id = deal_id := by
    rw [Table.ids, Table.ids, hnext]
    refine List.filter_congr fun i _ => ?_
    rw [hmessages]
    cases c.messages.row i with
    | none => rfl
    | some m =>
      by_cases hm : m.deal_id = k
      · simp [Option.filter, hm, Ne.symm hk]
      · simp [Option.filter, hm]
  rw [Chat.page, hids, Chat.page]

theorem row_of_page {limit : ℕ} {before_id : Option ℕ} (hi : i ∈ c.page deal_id limit before_id) :
    ∃ m, c.messages.row i = some m ∧ m.deal_id = deal_id := by
  have hmem := List.mem_of_mem_filter (List.mem_of_mem_take (List.mem_reverse.1 hi) |> List.mem_reverse.1)
  obtain ⟨m, hm, hdeal⟩ := Table.mem_ids.1 hmem
  exact ⟨m, hm, by simpa using hdeal⟩

theorem row_delete (h : deleteDealChat c k unlinked = .ok c') (hm : c.messages.row i = some m) (hk : m.deal_id ≠ k) :
    c'.messages.row i = some m := by
  rw [(deleteDealChat_ok h).2.1, hm]
  simp [Option.filter, hk]

theorem loadDealOr403_delete (h : deleteDealChat c k unlinked = .ok c') (hk : deal_id ≠ k) :
    loadDealOr403 c'.db deal_id user = loadDealOr403 c.db deal_id user := by
  simp only [loadDealOr403, getDeal, (deleteDealChat_ok h).1, Table.erase_row, if_neg hk]

/-- A message is a page of its chat. -/
theorem page_single (hm : c.messages.row i = some m) : c.page m.deal_id 1 (some (i + 1)) = [i] := by
  obtain ⟨r, hr⟩ := Nat.exists_eq_add_of_le (Table.lt_next hm)
  have hids : ((c.messages.ids fun x => x.deal_id = m.deal_id).filter fun j => (some (i + 1)).all (j < ·)) =
      ((List.range i).filter fun j => (c.messages.row j).any fun x => x.deal_id = m.deal_id) ++ [i] := by
    rw [Table.ids, List.filter_filter, hr, List.range_add, List.filter_append, List.range_succ, List.filter_append]
    have hlater : ((List.range r).map (i + 1 + ·)).filter (fun j => (some (i + 1)).all (j < ·) &&
        (c.messages.row j).any fun x => x.deal_id = m.deal_id) = [] := by
      refine List.filter_eq_nil_iff.2 fun j hj => ?_
      obtain ⟨x, -, rfl⟩ := List.mem_map.1 hj
      simp [show ¬i + 1 + x < i + 1 by omega]
    rw [hlater, List.append_nil]
    congr 1
    · refine List.filter_congr fun j hj => ?_
      have hlt := List.mem_range.1 hj
      simp [show j < i + 1 by omega]
    · simp [hm]
  rw [Chat.page, hids, List.reverse_append]
  rfl

/-- A message that lists the same attachments lost none of them. -/
theorem mediaById_of_attachments {id : ℤ}
    (h : (serializeOne sign c' i m).attachments = (serializeOne sign c i m).attachments)
    (hid : id ∈ parseAttachmentIds m.attachments_json) (hgone : c'.mediaById id = none) : c.mediaById id = none := by
  by_contra hsome
  obtain ⟨n, hn⟩ := Option.ne_none_iff_exists'.1 hsome
  have hmem : mediaOut sign id n ∈ (serializeOne sign c i m).attachments :=
    List.mem_filterMap.2 ⟨id, hid, by rw [hn]; rfl⟩
  rw [← h] at hmem
  obtain ⟨id', -, hout⟩ := List.mem_filterMap.1 hmem
  obtain ⟨n', hn', heq⟩ := Option.map_eq_some_iff.1 hout
  obtain rfl : id' = id := congrArg MediaOut.id heq
  rw [hgone] at hn'
  cases hn'

/-- The clean-up leaves the other chats alone exactly when they share no upload with the deal. -/
theorem delete_keeps_chats_iff (h0 : c₀.Empty) (h : Reach (ChatStep cfg) NewName c₀ c)
    (hdel : deleteDealChat c k unlinked = .ok c') : KeepsChats sign k c c' ↔ NothingShared c k := by
  have hinv := chat_inv h0 h
  constructor
  · intro hkeep i m hm hk id hid hall
    -- The buyer of the other deal asks for the page that is this message.
    obtain ⟨d, hd⟩ := Option.isSome_iff_exists.1 (hinv.about i m hm)
    have hload : ∀ c : Chat, c.db.deals.row m.deal_id = some d →
        loadDealOr403 c.db m.deal_id ⟨d.buyer_id, false, false⟩ = .ok d := by
      intro c hd
      simp [loadDealOr403, getDeal, orRaise, hd, raiseIf, bind, Except.bind, pure, Except.pure]
    have hd' : c'.db.deals.row m.deal_id = some d := by
      rw [(deleteDealChat_ok hdel).1, Table.erase_row, if_neg hk, hd]
    have hpage := hkeep.pages m.deal_id hk ⟨d.buyer_id, false, false⟩ 1 (some (i + 1))
    simp only [listMessages, hload c hd, hload c' hd', page_delete hdel hk, page_single hm, List.filterMap_cons,
      row_delete hdel hm hk, hm, ok_bind, Option.map_some, List.filterMap_nil] at hpage
    have hsame : serializeOne sign c' i m = serializeOne sign c i m := List.head_eq_of_cons_eq (Except.ok.inj hpage)
    refine mediaById_of_attachments (congrArg DealMessageOut.attachments hsame) hid ?_
    rw [mediaById_delete hdel, if_pos hall]
  · intro hnone
    have hsame : ∀ i m, c.messages.row i = some m → m.deal_id ≠ k →
        serializeOne sign c' i m = serializeOne sign c i m := by
      intro i m hm hk
      simp only [serializeOne, DealMessageOut.mk.injEq, true_and, and_true]
      refine List.filterMap_congr fun id hid => ?_
      rw [mediaById_delete hdel]
      split
      · rw [hnone i m hm hk id hid ‹_›]
      · rfl
    refine ⟨fun deal_id hk user limit before_id => ?_, fun i m hm id hid n hn => ?_⟩
    · simp only [listMessages, loadDealOr403_delete hdel hk, page_delete hdel hk]
      refine congrArg _ (funext fun _ => congrArg pure (List.filterMap_congr fun j hj => ?_))
      obtain ⟨m, hm, rfl⟩ := row_of_page hj
      rw [hm, row_delete hdel hm hk, Option.map_some, Option.map_some, hsame j m hm hk]
    · obtain ⟨-, hmessages, -, -, hfiles⟩ := deleteDealChat_ok hdel
      rw [hmessages, Option.filter_eq_some_iff] at hm
      obtain ⟨j, rfl, hrow⟩ := mediaById_eq_some hn
      refine (hfiles _).2 ⟨hinv.stored j n hrow, ?_⟩
      rintro ⟨⟨l, n', hl, hn', hp⟩, -⟩
      obtain rfl := hinv.apart l j n' n hn' hrow hp
      rw [hnone i m hm.1 (by simpa using hm.2) _ hid hl] at hn
      cases hn

/-! ## One upload in two chats -/

def sampleChatDeal : Deal :=
  newDeal 1 2 1 ⟨1000000000, money_ten_fits⟩ ⟨0, money_zero_fits⟩ .pending_topup "cryptobot" false 0

/-- Two deals of the same parties, nothing said yet. -/
def sampleChat : Chat where
  db := { sampleDb 2 ⟨0, money_zero_fits⟩ with deals := (Table.empty.insert sampleChatDeal).insert sampleChatDeal }
  messages := .empty
  media := .empty
  files := ∅

def sampleMediaSettings : MediaSettings := ⟨["deal"], ["", "media"]⟩

def sampleUpload : Upload := ⟨"deal", "image/png", .ok 68, "a.png", "20260101000000", "0a1b2c3d4e5f"⟩

def sampleBuyer : ChatUser := ⟨1, false, false⟩

def sampleUploaded : Chat :=
  { sampleChat with
    files := insert ("deal", sampleUpload.name 1 ".png") ∅
    media := Table.empty.insert
      ⟨1, "deal", ["", "media"] ++ ["deal", sampleUpload.name 1 ".png"], "a.png", 68, "image/png", 0⟩ }

/-- The buyer attaches the upload to a message. -/
def sampleMessage (deal_id : ℕ) : DealMessage := ⟨deal_id, 1, "", some (.list [.int 1]), 0⟩

def samplePosted : Chat :=
  { sampleUploaded with messages := (Table.empty.insert (sampleMessage 1)).insert (sampleMessage 2) }

theorem samplePosted_reached : Reach (ChatStep sampleMediaSettings) NewName sampleChat samplePosted := by
  have hupload : uploadMedia sampleMediaSettings sampleChat 1 sampleUpload 0 = .ok sampleUploaded := rfl
  have hfirst : createMessage sampleUploaded sampleBuyer 1 "" [1] 0 =
      .ok { sampleUploaded with messages := Table.empty.insert (sampleMessage 1) } := rfl
  have hsecond : createMessage
      { sampleUploaded with messages := Table.empty.insert (sampleMessage 1) } sampleBuyer 2 "" [1] 0 =
      .ok samplePosted := rfl
  have hstart : Reach (ChatStep sampleMediaSettings) NewName sampleChat sampleUploaded := by
    refine .step .refl ?_ (.upload hupload)
    exact fun ext _ => Finset.notMem_empty _
  have hposted : Reach (ChatStep sampleMediaSettings) NewName sampleChat
      { sampleUploaded with messages := Table.empty.insert (sampleMessage 1) } := by
    refine .step hstart ?_ (.post hfirst)
    trivial
  refine .step hposted ?_ (.post hsecond)
  trivial

/-- The state after deal 1 has been deleted. -/
def sampleDeleted : Chat :=
  { db := removeDeal samplePosted.db 1
    messages := samplePosted.messages.eraseAll [1]
    media := samplePosted.media.eraseAll [1]
    files := samplePosted.files.filter fun p => ¬(p ∈ [("deal", sampleUpload.name 1 ".png")] ∧ true) }

theorem sampleDeleted_ok : deleteDealChat samplePosted 1 (fun _ => true) = .ok sampleDeleted := rfl

theorem samplePosted_keeps_iff : Reach (ChatStep sampleMediaSettings) NewName sampleChat samplePosted ∧
    deleteDealChat samplePosted 1 (fun _ => true) = .ok sampleDeleted ∧
      (KeepsChats (fun url _ => url) 1 samplePosted sampleDeleted ↔ NothingShared samplePosted 1) :=
  ⟨samplePosted_reached, sampleDeleted_ok,
    delete_keeps_chats_iff ⟨fun _ => rfl, fun _ => rfl⟩ samplePosted_reached sampleDeleted_ok⟩

/-- The chat of deal 2 loses its attachment with deal 1. -/
theorem delete_empties_other_chat : ∃ c c', Reach (ChatStep sampleMediaSettings) NewName sampleChat c ∧
    deleteDealChat c 1 (fun _ => true) = .ok c' ∧ ¬KeepsChats (fun url _ => url) 1 c c' := by
  refine ⟨samplePosted, sampleDeleted, samplePosted_reached, sampleDeleted_ok, fun hkeep => ?_⟩
  have hpage := congrArg (fun r => r.toOption.map fun out => out.map (·.attachments.length))
    (hkeep.pages 2 (by decide) sampleBuyer 50 none)
  revert hpage
  decide +kernel

end Garant
