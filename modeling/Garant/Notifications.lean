import Garant.Schema
import Garant.Lib.Datetime
import Garant.Lib.Json
import Garant.Lib.Keyset
import Garant.Lib.Runs
/-!
# Notifications

The endpoints of `routers/notifications.py` and `notifier.insert`, over the table
of notifications. A client pages through the list by the last row it has, while
rows come, go and are read.

`notifications_scan_exact`: the pages of a scan never repeat a row, fall strictly, and
once one is short, hold every row that was there throughout. `counters_scan`: left
alone, a scan ends after the pages the counters announce, with as many rows.
-/

namespace Garant

inductive NotificationType
  | deals | deposits | system
deriving DecidableEq

def NotificationType.value : NotificationType → String
  | .deals => "deals"
  | .deposits => "deposits"
  | .system => "system"

/-- `NotificationType(value)`. -/
def NotificationType.ofValue (s : String) : Option NotificationType :=
  if s = "deals" then some .deals
  else if s = "deposits" then some .deposits
  else if s = "system" then some .system
  else none

structure Notification where
  recipient_id : ℕ
  type : NotificationType
  title : String
  body : String
  payload : Option Json.Value
  is_read : Bool
  created_at : Datetime.Naive

structure NotificationOut where
  id : ℕ
  type : String
  title : String
  body : String
  payload : Option Json.Value
  is_read : Bool
  created_at : Datetime.Naive

/-- `NotificationOut.model_validate`. -/
def NotificationOut.modelValidate (n : ℕ × Notification) : NotificationOut :=
  ⟨n.1, n.2.type.value, n.2.title, n.2.body, n.2.payload, n.2.is_read, n.2.created_at⟩

/-- What the endpoints raise. -/
inductive NotificationFailure
  | http (status_code : ℕ) (detail : String)
  /-- The framework refused a parameter. -/
  | validation_error
  /-- The database refused a time with an offset. -/
  | data_error
deriving DecidableEq

/-! ## Listing -/

def _PAGE_SIZE : ℤ := 200

/-- The parameters of `list_notifications`. -/
structure ListQuery where
  type : Option String
  before_created_at : Option String
  before_id : Option ℤ
  limit : ℤ

/-- What the framework lets through. -/
def ListQuery.Valid (q : ListQuery) : Prop := (∀ i ∈ q.before_id, 1 ≤ i) ∧ 1 ≤ q.limit ∧ q.limit ≤ _PAGE_SIZE

instance (q : ListQuery) : Decidable q.Valid := inferInstanceAs (Decidable (_ ∧ _))

/-- `s.replace("Z", "+00:00")`. -/
def replaceZ (s : String) : String :=
  String.ofList (s.toList.flatMap fun c => if c = 'Z' then "+00:00".toList else [c])

/-- The filter that `type` asks for; an unknown one asks for none. -/
def typeFilter (type : Option String) : Option NotificationType := (type.filter (· ≠ "")).bind NotificationType.ofValue

/-- The rows of the list. -/
def Notification.Listed (user_id : ℕ) (type : Option String) (n : Notification) : Prop :=
  n.recipient_id = user_id ∧ ∀ ty ∈ typeFilter type, n.type = ty

instance (user_id : ℕ) (type : Option String) (n : Notification) : Decidable (n.Listed user_id type) :=
  inferInstanceAs (Decidable (_ ∧ ∀ ty ∈ typeFilter type, n.type = ty))

/-- Strictly older than the cursor. -/
def Older (cursor : Time × ℤ) (n : ℕ × Notification) : Prop :=
  (n.2.created_at : Time) < cursor.1 ∨ (n.2.created_at : Time) = cursor.1 ∧ n.1 < cursor.2

/-- `order_by(created_at.desc(), id.desc())`. -/
def Newer (m n : ℕ × Notification) : Prop :=
  (n.2.created_at : Time) < m.2.created_at ∨ (n.2.created_at : Time) = m.2.created_at ∧ n.1 ≤ m.1

instance (cursor : Time × ℤ) (n : ℕ × Notification) : Decidable (Older cursor n) :=
  inferInstanceAs (Decidable (_ ∨ _ ∧ _))

instance : DecidableRel Newer := fun _ _ => inferInstanceAs (Decidable (_ ∨ _ ∧ _))

/-- The cursor of a request. -/
def ListQuery.cursor (q : ListQuery) : Except NotificationFailure (Option (Time × ℤ)) :=
  match q.before_created_at, q.before_id with
  | none, none => .ok none
  | some before_created_at, some before_id =>
    match Datetime.fromisoformat (replaceZ before_created_at) with
    | none => .error (.http 400 "Invalid before_created_at")
    | some cursor_ts => if cursor_ts.utcoffset.isSome then .error .data_error else .ok (some (cursor_ts.time, before_id))
  | _, _ => .error (.http 400 "before_created_at и before_id должны передаваться вместе")

/-- The rows of the statement. -/
def ListQuery.stmt (q : ListQuery) (t : Table Notification) (user_id : ℕ) (cursor : Option (Time × ℤ)) :
    List (ℕ × Notification) :=
  let rows := t.entries.filter fun n => decide (n.2.Listed user_id q.type) && cursor.all fun c => decide (Older c n)
  (rows.insertionSort Newer).take q.limit.toNat

def listNotifications (t : Table Notification) (user_id : ℕ) (q : ListQuery) :
    Except NotificationFailure (List NotificationOut) := do
  if ¬q.Valid then throw .validation_error
  let cursor ← q.cursor
  pure ((q.stmt t user_id cursor).map NotificationOut.modelValidate)

structure NotificationCountersOut where
  all : ℕ
  deals : ℕ
  deposits : ℕ
  system : ℕ
  unread : ℕ
deriving DecidableEq

def getCounters (t : Table Notification) (user_id : ℕ) : NotificationCountersOut :=
  let count (p : Notification → Bool) := t.count fun n => n.recipient_id = user_id && p n
  ⟨count fun _ => true, count (·.type = .deals), count (·.type = .deposits), count (·.type = .system), count (!·.is_read)⟩

/-! ## Reading and writing -/

/-- The frame of `_publish_read`. -/
structure ReadFrame where
  ids : List ℕ
  all : Bool
  type : Option String
deriving DecidableEq

/-- The row of `get_notification` and `mark_read`. -/
def ownNotification (t : Table Notification) (notif_id user_id : ℕ) : Except NotificationFailure Notification :=
  match t.row notif_id with
  | some n => if n.recipient_id ≠ user_id then .error (.http 404 "Уведомление не найдено") else .ok n
  | none => .error (.http 404 "Уведомление не найдено")

def markRead (t : Table Notification) (notif_id user_id : ℕ) :
    Except NotificationFailure (Table Notification × Option ReadFrame) := do
  let n ← ownNotification t notif_id user_id
  pure (t.set notif_id { n with is_read := true },
    if n.is_read then none else some ⟨[notif_id], false, some n.type.value⟩)

/-- `mark_all_read` with the ids its first statement found; the table may have changed since. -/
def markAllRead (t : Table Notification) (user_id : ℕ) (rows : List ℕ) : Table Notification × Option ReadFrame :=
  if rows = [] then (t, none)
  else (t.mapRows fun _ n => if n.recipient_id = user_id ∧ n.is_read = false then { n with is_read := true } else n,
    some ⟨rows, true, none⟩)

def NOTIFICATION_PAYLOAD_MAX_BYTES : ℕ := 4096

/-- `_check_payload_cap(payload).stored`; `encoded_bytes` is the length of `json.dumps`. -/
def storedPayload (encoded_bytes : Json.Value → ℕ) (payload : Option Json.Value) : Option Json.Value :=
  match payload with
  | none | some (.obj []) => none
  | some v => if NOTIFICATION_PAYLOAD_MAX_BYTES < encoded_bytes v then none else some v

/-- `notifier.insert`. -/
def notifierInsert (encoded_bytes : Json.Value → ℕ) (t : Table Notification) (recipient_id : ℕ) (type : NotificationType)
    (title body : String) (payload : Option Json.Value) (now : Datetime.Naive) : Table Notification :=
  t.insert ⟨recipient_id, type, title, body, storedPayload encoded_bytes payload, false, now⟩

/-- What `ON DELETE CASCADE` does when the recipient is deleted. -/
def cascadeRecipient (t : Table Notification) (user_id : ℕ) : Table Notification :=
  t.eraseAll (t.ids fun n => n.recipient_id = user_id)

/-! ## The list as a page of keys -/

/-- What the list is sorted by. -/
def feedKey (n : ℕ × Notification) : Time ×ₗ ℤ := toLex ((n.2.created_at : Time), (n.1 : ℤ))

def NotificationOut.key (r : NotificationOut) : Time ×ₗ ℤ := toLex ((r.created_at : Time), (r.id : ℤ))

/-- The keys of the rows a list is about. -/
def feedKeys (t : Table Notification) (user_id : ℕ) (type : Option String) : List (Time ×ₗ ℤ) :=
  (t.entries.filter fun n => decide (n.2.Listed user_id type)).map feedKey

section
variable {t t' : Table Notification} {user_id i : ℕ} {type : Option String}
  {q : ListQuery} {rows : List NotificationOut} {n n' : Notification} {r : NotificationOut}

theorem older_iff {c : Time × ℤ} {m : ℕ × Notification} : Older c m ↔ feedKey m < toLex c :=
  (Prod.Lex.toLex_lt_toLex (x := ((m.2.created_at : Time), (m.1 : ℤ))) (y := c)).symm

theorem newer_iff {m m' : ℕ × Notification} : Newer m m' ↔ feedKey m' ≤ feedKey m :=
  by
  rw [feedKey, feedKey, Prod.Lex.toLex_le_toLex, Int.ofNat_le]
  rfl

theorem nodup_feedKeys : (feedKeys t user_id type).Nodup := by
  refine List.Nodup.of_map (fun k => (ofLex k).2.toNat) ?_
  rw [feedKeys, List.map_map]
  exact Table.nodup_entries.sublist (List.filter_sublist.map _)

theorem mem_feedKeys {k : Time ×ₗ ℤ} :
    k ∈ feedKeys t user_id type ↔ ∃ i n, t.row i = some n ∧ n.Listed user_id type ∧
      toLex ((n.created_at : Time), (i : ℤ)) = k := by
  simp only [feedKeys, List.mem_map, List.mem_filter, decide_eq_true_eq, Table.mem_entries]
  constructor
  · rintro ⟨⟨i, n⟩, ⟨hn, hl⟩, rfl⟩
    exact ⟨i, n, hn, hl, rfl⟩
  · rintro ⟨i, n, hn, hl, rfl⟩
    exact ⟨(i, n), ⟨hn, hl⟩, rfl⟩

theorem listNotifications_ok : listNotifications t user_id q = .ok rows ↔
    q.Valid ∧ ∃ cursor, q.cursor = .ok cursor ∧
      (q.stmt t user_id cursor).map NotificationOut.modelValidate = rows := by
  unfold listNotifications
  by_cases hv : q.Valid
  · cases q.cursor <;> simp [hv, bind, Except.bind, pure, Except.pure]
  · simp [hv, bind, Except.bind, throw, throwThe, MonadExceptOf.throw]

/-- A page of the list, by the keys of its rows. -/
theorem stmt_keys {cursor : Option (Time × ℤ)} :
    (q.stmt t user_id cursor).map feedKey = Keyset.page (feedKeys t user_id q.type) (cursor.map toLex) q.limit.toNat := by
  have hbelow : (fun n : ℕ × Notification => cursor.all fun c => decide (Older c n)) =
      (fun k => (cursor.map toLex).all (k < ·)) ∘ feedKey := by
    funext n
    cases cursor with
    | none => rfl
    | some c => exact decide_eq_decide.2 older_iff
  rw [ListQuery.stmt, List.map_take, List.map_insertionSort (r := Newer) (s := (· ≥ ·)) _ _ fun _ _ _ _ => newer_iff,
    Keyset.page, feedKeys, List.filter_map, ← hbelow, List.filter_filter]
  simp only [Bool.and_comm]

/-- The rows of a page are rows of the table that the list is about. -/
theorem mem_stmt {cursor : Option (Time × ℤ)} {m : ℕ × Notification} (h : m ∈ q.stmt t user_id cursor) :
    t.row m.1 = some m.2 ∧ m.2.Listed user_id q.type := by
  have hmem := (List.mem_insertionSort _).1 (List.mem_of_mem_take h)
  simp only [List.mem_filter, Bool.and_eq_true, decide_eq_true_eq, Table.mem_entries] at hmem
  exact ⟨hmem.1, hmem.2.1⟩

end

/-! ## A client that pages through the list -/

/-- The table, and the pages that a client has got. -/
structure Feed where
  notifications : Table Notification
  rows : List NotificationOut
  short : Bool

def Feed.start (t : Table Notification) : Feed := ⟨t, [], false⟩

inductive FeedOp
  | insert (recipient_id : ℕ) (type : NotificationType) (title body : String) (payload : Option Json.Value)
    (now : Datetime.Naive)
  | markRead (notif_id user_id : ℕ)
  | markAllRead (user_id : ℕ) (rows : List ℕ)
  | deleteUser (user_id : ℕ)
  | page (limit : ℤ)

section
variable (encoded_bytes : Json.Value → ℕ) (user_id : ℕ) (type : Option String)

/-- The client asks for what comes after the last row it has, by the two fields of that row. -/
def Feed.query (s : Feed) (limit : ℤ) : ListQuery where
  type := type
  before_created_at := s.rows.getLast?.map fun r => Datetime.isoformat r.created_at
  before_id := s.rows.getLast?.map fun r => (r.id : ℤ)
  limit := limit

def Feed.exec (s : Feed) : FeedOp → Except NotificationFailure Feed
  | .insert recipient_id ty title body payload now =>
    .ok { s with notifications := notifierInsert encoded_bytes s.notifications recipient_id ty title body payload now }
  | .markRead notif_id u => (fun x => { s with notifications := x.1 }) <$> markRead s.notifications notif_id u
  | .markAllRead u rows => .ok { s with notifications := (markAllRead s.notifications u rows).1 }
  | .deleteUser u => .ok { s with notifications := cascadeRecipient s.notifications u }
  | .page limit => do
    let page ← listNotifications s.notifications user_id (s.query type limit)
    pure { s with rows := s.rows ++ page, short := page.length < limit.toNat }
end

/-! ## What the writes leave alone -/

/-- The same notification, read or not. -/
def Notification.Same (n n' : Notification) : Prop := n' = { n with is_read := n'.is_read }

/-- What the writes make of the table: the rows that stay are the same. -/
abbrev SameRows (t t' : Table Notification) : Prop := t.Evolves Notification.Same t'

section
variable {encoded_bytes : Json.Value → ℕ} {t t' t'' : Table Notification} {user_id i : ℕ} {type : Option String}
  {n n' : Notification} {s s' : Feed} {op : FeedOp}

theorem Notification.Same.refl (n : Notification) : n.Same n := rfl

theorem Notification.Same.trans (n n' n'' : Notification) (h : n.Same n') (h' : n'.Same n'') : n.Same n'' := by
  rw [Same] at h h' ⊢
  rw [h', h]

theorem Notification.Same.listed (h : n.Same n') : n'.Listed user_id type ↔ n.Listed user_id type := by
  rw [h]
  rfl

theorem Notification.Same.created_at (h : n.Same n') : n'.created_at = n.created_at := by rw [h]

/-- What a step does: a write leaves the pages alone, and a page leaves the table alone. -/
theorem Feed.exec_cases (h : s.exec encoded_bytes user_id type op = .ok s') :
    (SameRows s.notifications s'.notifications ∧ s'.rows = s.rows ∧ s'.short = s.short) ∨
    ∃ limit page, op = .page limit ∧
      listNotifications s.notifications user_id (s.query type limit) = .ok page ∧
      s' = { s with rows := s.rows ++ page, short := page.length < limit.toNat } := by
  cases op with
  | insert =>
    cases h
    exact .inl ⟨Table.evolves_insert .refl, rfl, rfl⟩
  | markRead notif_id u =>
    left
    simp only [Feed.exec, markRead, ownNotification] at h
    cases hn : s.notifications.row notif_id with
    | none =>
      rw [hn] at h
      cases h
    | some n =>
      rw [hn] at h
      by_cases hu : n.recipient_id ≠ u
      · simp [hu, bind, Except.bind, Functor.map, Except.map] at h
      · simp only [hu, if_false, bind, Except.bind, pure, Except.pure, Functor.map, Except.map, Except.ok.injEq] at h
        subst h
        exact ⟨Table.evolves_set .refl hn rfl, rfl, rfl⟩
  | markAllRead u rows =>
    cases h
    refine .inl ⟨?_, rfl, rfl⟩
    rw [markAllRead]
    split
    · exact .refl .refl _
    · refine Table.evolves_mapRows fun _ n => ?_
      split
      · rfl
      · exact .refl n
  | deleteUser u =>
    cases h
    exact .inl ⟨Table.evolves_eraseAll .refl _, rfl, rfl⟩
  | page limit =>
    right
    simp only [Feed.exec] at h
    cases hpage : listNotifications s.notifications user_id (s.query type limit) with
    | error e =>
      rw [hpage] at h
      cases h
    | ok page =>
      rw [hpage] at h
      cases h
      exact ⟨limit, page, rfl, hpage, rfl⟩

/-! ## Scans -/

/-- The keys of the rows that have been listed and in place since `t`. -/
def StillListed (t t' : Table Notification) (user_id : ℕ) (type : Option String) (k : Time ×ₗ ℤ) : Prop :=
  ∃ i n, t.row i = some n ∧ n.Listed user_id type ∧ (t'.row i).isSome ∧ toLex ((n.created_at : Time), (i : ℤ)) = k

/-- What a client's pages are worth, in every state that it reaches. -/
structure Feed.Inv (t : Table Notification) (user_id : ℕ) (type : Option String) (s : Feed) : Prop where
  kept : SameRows t s.notifications
  exact : (⟨s.rows.map (·.key), s.short⟩ : Keyset.Scan (Time ×ₗ ℤ)).Exact (StillListed t s.notifications user_id type)
  known : ∀ r ∈ s.rows, 1 ≤ r.id ∧ r.id < s.notifications.next
  served : ∀ r ∈ s.rows, ∀ n, s.notifications.row r.id = some n → n.Listed user_id type ∧ n.created_at = r.created_at
  nodup : (s.rows.map (·.id)).Nodup

theorem StillListed.mono {k : Time ×ₗ ℤ} (hk : SameRows t t') (hk' : SameRows t' t'') (h : StillListed t t'' user_id type k) :
    StillListed t t' user_id type k := by
  obtain ⟨i, n, hn, hl, hstill, rfl⟩ := h
  obtain ⟨n'', hn''⟩ := Option.isSome_iff_exists.1 hstill
  obtain ⟨n', hn', -⟩ := hk'.row i n'' ((Table.lt_next hn).trans_le hk.next) hn''
  exact ⟨i, n, hn, hl, by simp [hn'], rfl⟩

/-- A row that stayed is a row the list is about. -/
theorem StillListed.mem {k : Time ×ₗ ℤ} (hk : SameRows t t') (h : StillListed t t' user_id type k) :
    k ∈ feedKeys t' user_id type := by
  obtain ⟨i, n, hn, hl, hstill, rfl⟩ := h
  obtain ⟨n', hn'⟩ := Option.isSome_iff_exists.1 hstill
  obtain ⟨m, hm, hsame⟩ := hk.row i n' (Table.lt_next hn) hn'
  rw [hn] at hm
  cases hm
  exact mem_feedKeys.2 ⟨i, n', hn', hsame.listed.2 hl, by rw [hsame.created_at]⟩

theorem feed_start : (Feed.start t).Inv t user_id type where
  kept := .refl .refl t
  exact := Keyset.Scan.exact_start
  known _ h := by cases h
  served _ h := by cases h
  nodup := .nil

/-- A write keeps the invariant: the rows served are as they were, or gone. -/
theorem Feed.Inv.write (h : s.Inv t user_id type) (hk : SameRows s.notifications s'.notifications) (hrows : s'.rows = s.rows)
    (hshort : s'.short = s.short) : s'.Inv t user_id type where
  kept := h.kept.trans .trans hk
  exact := by
    rw [hrows, hshort]
    exact h.exact.mono fun k hstill => hstill.mono h.kept hk
  known r hr := by
    rw [hrows] at hr
    exact ⟨(h.known r hr).1, (h.known r hr).2.trans_le hk.next⟩
  served r hr n' hn' := by
    rw [hrows] at hr
    obtain ⟨n, hn, hsame⟩ := hk.row r.id n' (h.known r hr).2 hn'
    obtain ⟨hl, hat⟩ := h.served r hr n hn
    exact ⟨hsame.listed.2 hl, hsame.created_at.trans hat⟩
  nodup := by
    rw [hrows]
    exact h.nodup

/-- A time that was printed has no `Z` to replace. -/
theorem replaceZ_isoformat (time : Datetime.Naive) : replaceZ (Datetime.isoformat time) = Datetime.isoformat time := by
  have hZ : ∀ c ∈ (Datetime.isoformat time).toList, c ≠ 'Z' := by
    rintro _ hc rfl
    exact absurd (Datetime.mem_isoformat hc) (by decide)
  have hmap : (Datetime.isoformat time).toList.flatMap (fun c => if c = 'Z' then "+00:00".toList else [c]) =
      (Datetime.isoformat time).toList := by
    conv_rhs => rw [← List.flatMap_singleton' (Datetime.isoformat time).toList]
    exact List.flatMap_congr fun c hc => if_neg (hZ c hc)
  rw [replaceZ, hmap, String.ofList_toList]

theorem query_cursor (limit : ℤ) : (s.query type limit).cursor =
    .ok (s.rows.getLast?.map fun r => ((r.created_at : Time), (r.id : ℤ))) := by
  unfold ListQuery.cursor Feed.query
  cases s.rows.getLast? with
  | none => rfl
  | some r => simp [replaceZ_isoformat, Datetime.fromisoformat_isoformat]

/-- A client that asks for a page size that is allowed is answered. -/
theorem page_answered (hknown : ∀ r ∈ s.rows, 1 ≤ r.id) {limit : ℤ} (hge : 1 ≤ limit) (hle : limit ≤ _PAGE_SIZE) :
    ∃ page, listNotifications s.notifications user_id (s.query type limit) = .ok page := by
  refine ⟨_, listNotifications_ok.2 ⟨⟨?_, hge, hle⟩, _, query_cursor limit, rfl⟩⟩
  intro i hi
  obtain ⟨r, hr, rfl⟩ := Option.map_eq_some_iff.1 hi
  exact_mod_cast hknown r (List.mem_of_getLast? hr)

/-- A page takes the scan of the keys one page on. -/
theorem page_next {limit : ℤ}
    {page : List NotificationOut}
    (h : listNotifications s.notifications user_id (s.query type limit) = .ok page) :
    (⟨(s.rows ++ page).map (·.key), page.length < limit.toNat⟩ : Keyset.Scan (Time ×ₗ ℤ)) =
      Keyset.Scan.next (feedKeys s.notifications user_id type) limit.toNat ⟨s.rows.map (·.key), s.short⟩ := by
  obtain ⟨-, cursor, hcursor, rfl⟩ := listNotifications_ok.1 h
  rw [query_cursor] at hcursor
  cases hcursor
  generalize hstmt : (s.query type limit).stmt s.notifications user_id
    (s.rows.getLast?.map fun r => ((r.created_at : Time), (r.id : ℤ))) = stmt
  have hpage : (stmt.map NotificationOut.modelValidate).map (·.key) =
      Keyset.page (feedKeys s.notifications user_id type) (s.rows.map (·.key)).getLast? limit.toNat := by
    have hlast : (s.rows.map (·.key)).getLast? =
        (s.rows.getLast?.map fun r => ((r.created_at : Time), (r.id : ℤ))).map toLex := by
      rw [List.getLast?_map, Option.map_map]
      rfl
    rw [List.map_map, hlast, ← hstmt]
    exact stmt_keys
  rw [Keyset.Scan.next, ← hpage, List.map_append, List.length_map, List.length_map, List.length_map]

/-- A page keeps the invariant. -/
theorem Feed.Inv.page
    (h : s.Inv t user_id type) (hzero : s.notifications.row 0 = none) {limit : ℤ} {page : List NotificationOut}
    (hpage : listNotifications s.notifications user_id (s.query type limit) = .ok page) :
    Feed.Inv t user_id type { s with rows := s.rows ++ page, short := page.length < limit.toNat } := by
  have hrow : ∀ r ∈ page, ∃ n, s.notifications.row r.id = some n ∧ n.Listed user_id type ∧ r = .modelValidate (r.id, n) := by
    obtain ⟨-, cursor, -, rfl⟩ := listNotifications_ok.1 hpage
    rintro r hr
    obtain ⟨m, hm, rfl⟩ := List.mem_map.1 hr
    exact ⟨m.2, (mem_stmt hm).1, (mem_stmt hm).2, rfl⟩
  have hexact : (⟨(s.rows ++ page).map (·.key), page.length < limit.toNat⟩ : Keyset.Scan (Time ×ₗ ℤ)).Exact
      (StillListed t s.notifications user_id type) := by
    rw [page_next hpage]
    exact h.exact.next nodup_feedKeys fun k hk => hk.mem h.kept
  have hdesc := hexact.desc
  simp only [List.map_append, List.pairwise_append, List.mem_map] at hdesc
  have hids : (page.map (·.id)).Nodup := by
    have hnodup : page.Nodup := .of_map _ (hdesc.2.1.imp ne_of_gt)
    refine (List.nodup_map_iff_inj_on hnodup).2 fun r hr r' hr' hid => ?_
    obtain ⟨n, hn, -, hout⟩ := hrow r hr
    obtain ⟨n', hn', -, hout'⟩ := hrow r' hr'
    rw [← hid, hn] at hn'
    cases hn'
    rw [hout, hout', hid]
  refine ⟨h.kept, hexact, fun r hr => ?_, fun r hr n hn => ?_, ?_⟩
  · rcases List.mem_append.1 hr with hr | hr
    · exact h.known r hr
    · obtain ⟨n, hn, -⟩ := hrow r hr
      refine ⟨Nat.one_le_iff_ne_zero.2 fun h0 => ?_, Table.lt_next hn⟩
      rw [h0, hzero] at hn
      cases hn
  · rcases List.mem_append.1 hr with hr | hr
    · exact h.served r hr n hn
    · obtain ⟨n', hn', hl, hout⟩ := hrow r hr
      rw [hn] at hn'
      cases hn'
      exact ⟨hl, by rw [hout]; rfl⟩
  · rw [List.map_append, List.nodup_append]
    refine ⟨h.nodup, hids, ?_⟩
    -- a row served before has the creation time it had then, so the page would be past it
    rintro _ hi _ hi' rfl
    obtain ⟨r, hr, rfl⟩ := List.mem_map.1 hi
    obtain ⟨r', hr', hid⟩ := List.mem_map.1 hi'
    obtain ⟨n, hn, -, hout⟩ := hrow r' hr'
    have hat : n.created_at = r.created_at := (h.served r hr n (hid ▸ hn)).2
    have hkey : r'.key = r.key := by
      rw [NotificationOut.key, NotificationOut.key, hid, ← hat, hout]
      rfl
    exact absurd hkey (hdesc.2.2 r.key ⟨r, hr, rfl⟩ r'.key ⟨r', hr', rfl⟩).ne

/-- Every state a client reaches. -/
theorem feed_inv (hzero : t.row 0 = none) (hnext : 1 ≤ t.next)
    (h : Reach (fun op s s' => s.exec encoded_bytes user_id type op = .ok s') Free (Feed.start t) s) :
    s.Inv t user_id type := by
  refine h.invariant feed_start fun op s s' hinv _ hstep => ?_
  rcases Feed.exec_cases hstep with ⟨hk, hrows, hshort⟩ | ⟨limit, page, -, hpage, rfl⟩
  · exact hinv.write hk hrows hshort
  · refine hinv.page ?_ hpage
    cases h0 : s.notifications.row 0 with
    | none => rfl
    | some n =>
      obtain ⟨m, hm, -⟩ := hinv.kept.row 0 n hnext h0
      rw [hzero] at hm
      cases hm

/-- However rows come, go and are read between the pages of a scan, no row comes
twice, the rows fall strictly by time and id, every row still there is one the
client asked for, the next page is granted, and once a page is short, every row
that was listed at the start and is still there has come. -/
theorem notifications_scan_exact (hzero : t.row 0 = none) (hnext : 1 ≤ t.next)
    (h : Reach (fun op s s' => s.exec encoded_bytes user_id type op = .ok s') Free (Feed.start t) s) :
    (s.rows.map (·.id)).Nodup ∧ (s.rows.map (·.key)).Pairwise (· > ·) ∧
    (∀ r ∈ s.rows, ∀ n, s.notifications.row r.id = some n → n.Listed user_id type) ∧
    (∀ limit, 1 ≤ limit → limit ≤ _PAGE_SIZE → ∃ s',
      s.exec encoded_bytes user_id type (.page limit) = .ok s') ∧
    (s.short = true → ∀ i n, t.row i = some n → n.Listed user_id type → (s.notifications.row i).isSome →
      i ∈ s.rows.map (·.id)) := by
  have hinv := feed_inv hzero hnext h
  refine ⟨hinv.nodup, hinv.exact.desc, fun r hr n hn => (hinv.served r hr n hn).1, fun limit hge hle => ?_,
    fun hshort i n hn hl hstill => ?_⟩
  · obtain ⟨page, hpage⟩ := page_answered (fun r hr => (hinv.known r hr).1) hge hle
    exact ⟨_, by rw [Feed.exec, hpage]; rfl⟩
  · obtain ⟨r, hr, hkey⟩ := List.mem_map.1 (hinv.exact.complete hshort _ ⟨i, n, hn, hl, hstill, rfl⟩)
    have hid : (r.id : ℤ) = i := congrArg (fun k : Time ×ₗ ℤ => (ofLex k).2) hkey
    exact List.mem_map.2 ⟨r, hr, by exact_mod_cast hid⟩

/-! ## A scan with writes between its pages -/

def sampleNoon : Datetime.Naive := ⟨seconds 1717243200, by decide⟩

def sampleNotification (recipient_id : ℕ) : Notification := ⟨recipient_id, .deals, "", "", none, false, sampleNoon⟩

/-- Three notifications of one user and one of another, all of one moment. -/
def sampleNotifications : Table Notification :=
  (((Table.empty.insert (sampleNotification 1)).insert (sampleNotification 1)).insert (sampleNotification 2)).insert
    (sampleNotification 1)

def sampleScan : List FeedOp :=
  [.page 2, .insert 1 .system "" "" none sampleNoon, .markRead 1 1, .deleteUser 2, .page 2]

theorem sampleScan_exact : ∃ s : Feed, (s.rows.map (·.id) = [4, 2, 1] ∧ s.short = true) ∧
    (∀ i n, sampleNotifications.row i = some n → n.Listed 1 none → (s.notifications.row i).isSome →
      i ∈ s.rows.map (·.id)) := by
  obtain ⟨s, hrun, hs⟩ := Reach.free_of_check (s := Feed.start sampleNotifications)
    (p := fun s => s.rows.map (·.id) = [4, 2, 1] ∧ s.short = true)
    (Feed.exec (fun _ => 0) 1 none) sampleScan (by decide +kernel)
  obtain ⟨-, -, -, -, hall⟩ := notifications_scan_exact rfl (by decide) hrun
  exact ⟨s, hs, hall hs.2⟩

/-! ## The counters -/

/-- The counter of the list with a type filter. -/
def NotificationCountersOut.of (c : NotificationCountersOut) : Option NotificationType → ℕ
  | none => c.all
  | some .deals => c.deals
  | some .deposits => c.deposits
  | some .system => c.system

/-- The rows that a list is about, as they are served. -/
def listedRows (t : Table Notification) (user_id : ℕ) (type : Option String) : List NotificationOut :=
  (t.entries.filter fun n => decide (n.2.Listed user_id type)).map .modelValidate

theorem listedRows_keys : (listedRows t user_id type).map (·.key) = feedKeys t user_id type := by
  rw [listedRows, List.map_map]
  rfl

theorem listedRows_length : (listedRows t user_id type).length = (getCounters t user_id).of (typeFilter type) := by
  have hcount (p : Notification → Bool)
      (hp : ∀ n, decide (n.Listed user_id type) = (decide (n.recipient_id = user_id) && p n)) :
      (listedRows t user_id type).length = t.count fun n => n.recipient_id = user_id && p n := by
    rw [listedRows, List.length_map, Table.count_eq_length]
    simp only [hp]
  cases hty : typeFilter type with
  | none => exact hcount _ fun n => by simp [Notification.Listed, hty]
  | some ty => cases ty <;> exact hcount _ fun n => by simp [Notification.Listed, hty]

theorem listedRows_unread (hty : typeFilter type = none) :
    ((listedRows t user_id type).filter (!·.is_read)).length = (getCounters t user_id).unread := by
  rw [listedRows, List.filter_map, List.length_map, List.filter_filter]
  show _ = t.count fun n => n.recipient_id = user_id && !n.is_read
  rw [Table.count_eq_length]
  congr 2
  funext n
  simp [Notification.Listed, hty, NotificationOut.modelValidate, Bool.and_comm]

/-- Every notification has one of the three types. -/
theorem counters_add : (getCounters t user_id).all =
    (getCounters t user_id).deals + (getCounters t user_id).deposits + (getCounters t user_id).system := by
  simp only [getCounters, Table.count_eq_length, Bool.and_true]
  induction t.entries with
  | nil => rfl
  | cons e l ih =>
    by_cases hu : e.2.recipient_id = user_id
    · cases hty : e.2.type <;> simp [hu, hty] at ih ⊢ <;> omega
    · simpa [hu] using ih

/-- Pages of a table that nobody writes to are the pages of its keys. -/
theorem quiet_scan (hzero : t.row 0 = none) {limit : ℤ} (hge : 1 ≤ limit) (hle : limit ≤ _PAGE_SIZE) (n : ℕ) :
    ∃ s, (List.replicate n (FeedOp.page limit)).foldlM
        (fun s op => Feed.exec encoded_bytes user_id type s op) (Feed.start t) = .ok s ∧
      s.notifications = t ∧ (∀ r ∈ s.rows, r ∈ listedRows t user_id type) ∧
      (⟨s.rows.map (·.key), s.short⟩ : Keyset.Scan (Time ×ₗ ℤ)) =
        Keyset.Scan.times (feedKeys t user_id type) limit.toNat n := by
  induction n with
  | zero => exact ⟨Feed.start t, rfl, rfl, (fun r hr => by cases hr), rfl⟩
  | succ n ih =>
    obtain ⟨s, hrun, rfl, hrows, hscan⟩ := ih
    have hknown : ∀ r ∈ s.rows, 1 ≤ r.id := by
      intro r hr
      obtain ⟨m, hm, rfl⟩ := List.mem_map.1 (hrows r hr)
      refine Nat.one_le_iff_ne_zero.2 fun h0 => ?_
      have hrow := Table.mem_entries.1 (List.mem_of_mem_filter hm)
      rw [show m.1 = 0 from h0, hzero] at hrow
      cases hrow
    obtain ⟨page, hpage⟩ : ∃ page,
        listNotifications s.notifications user_id (s.query type limit) = .ok page :=
      page_answered hknown hge hle
    refine ⟨{ s with rows := s.rows ++ page, short := page.length < limit.toNat }, ?_, rfl, fun r hr => ?_, ?_⟩
    · rw [List.replicate_succ', List.foldlM_append, hrun]
      show List.foldlM _ s _ = _
      rw [List.foldlM_cons, Feed.exec, hpage]
      rfl
    · rcases List.mem_append.1 hr with hr | hr
      · exact hrows r hr
      · obtain ⟨-, cursor, -, rfl⟩ := listNotifications_ok.1 hpage
        obtain ⟨m, hm, rfl⟩ := List.mem_map.1 hr
        obtain ⟨hrow, hl⟩ := mem_stmt hm
        exact List.mem_map_of_mem (List.mem_filter.2 ⟨Table.mem_entries.2 hrow, decide_eq_true hl⟩)
    · rw [Keyset.Scan.times, ← hscan]
      exact page_next hpage

/-- On a table nobody writes to, a scan is over after the pages that the counter
of its filter announces. It has then every row of the list once, as many as the
counter says, and as many unread ones; the counters of the types add up to `all`. -/
theorem counters_scan (hzero : t.row 0 = none) {limit : ℤ} (hge : 1 ≤ limit) (hle : limit ≤ _PAGE_SIZE) :
    ∃ s, (List.replicate ((getCounters t user_id).of (typeFilter type) / limit.toNat + 1) (FeedOp.page limit)).foldlM
        (fun s op => Feed.exec encoded_bytes user_id type s op) (Feed.start t) = .ok s ∧
      s.short = true ∧ s.rows.Perm (listedRows t user_id type) ∧
      s.rows.length = (getCounters t user_id).of (typeFilter type) ∧
      (typeFilter type = none → (s.rows.filter (!·.is_read)).length = (getCounters t user_id).unread) ∧
      (getCounters t user_id).all =
        (getCounters t user_id).deals + (getCounters t user_id).deposits + (getCounters t user_id).system := by
  have hcounter : (listedRows t user_id type).length = (getCounters t user_id).of (typeFilter type) := listedRows_length
  obtain ⟨s, hrun, -, hrows, hscan⟩ :
      ∃ s, (List.replicate ((getCounters t user_id).of (typeFilter type) / limit.toNat + 1) (FeedOp.page limit)).foldlM
        (fun s op => Feed.exec encoded_bytes user_id type s op) (Feed.start t) = .ok s ∧ _ :=
    quiet_scan hzero hge hle _
  have hlen : (feedKeys t user_id type).length = (listedRows t user_id type).length := by
    rw [← listedRows_keys, List.length_map]
  rw [← hcounter, ← hlen, Keyset.Scan.scan_times nodup_feedKeys (by omega), Keyset.Scan.mk.injEq] at hscan
  obtain ⟨hkeys, hshort⟩ := hscan
  -- the keys of the pages are those of the list, and a row is known by its key
  have hperm : s.rows.Perm (listedRows t user_id type) := by
    have hkperm : (s.rows.map (·.key)).Perm ((listedRows t user_id type).map (·.key)) := by
      rw [hkeys, listedRows_keys]
      exact List.perm_insertionSort _ _
    have hnodup : ((listedRows t user_id type).map (·.key)).Nodup := by
      rw [listedRows_keys]
      exact nodup_feedKeys
    refine (List.perm_ext_iff_of_nodup (.of_map _ (hkperm.nodup_iff.2 hnodup)) (.of_map _ hnodup)).2 fun r => ⟨hrows r, ?_⟩
    intro hr
    obtain ⟨r', hr', hkey⟩ := List.mem_map.1 (hkperm.mem_iff.2 (List.mem_map_of_mem hr))
    rwa [← List.inj_on_of_nodup_map hnodup (hrows r' hr') hr hkey]
  refine ⟨s, hrun, hshort, hperm, hperm.length_eq.trans hcounter, fun hty => ?_, counters_add⟩
  rw [← listedRows_unread hty]
  exact (hperm.filter _).length_eq

theorem sampleCounters_scan : getCounters sampleNotifications 1 = ⟨3, 3, 0, 0, 3⟩ ∧ ∃ s : Feed,
    (List.replicate 2 (FeedOp.page 2)).foldlM
      (fun s op => Feed.exec (fun _ => 0) 1 none s op) (Feed.start sampleNotifications) = .ok s ∧
      s.short = true ∧ s.rows.length = 3 := by
  have hcounters : getCounters sampleNotifications 1 = ⟨3, 3, 0, 0, 3⟩ := by decide +kernel
  have hzero : sampleNotifications.row 0 = none := rfl
  obtain ⟨s, hrun, hshort, -, hlen, -⟩ := counters_scan hzero (by decide : (1 : ℤ) ≤ 2) (by decide)
  rw [hcounters] at hrun hlen
  exact ⟨hcounters, s, hrun, hshort, hlen⟩

end
end Garant
