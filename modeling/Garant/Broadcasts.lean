import Garant.Notifications
import Garant.Lib.Transactions
/-!
# Broadcasts

`create_broadcast` of `routers/admin/broadcasts.py`: the ids of the audience are
read once, and then the users are loaded, notified and messaged 500 at a time,
with a commit for the notifications of a chunk and another for the counters.
Behind the first commit `dispatch_after_commit` starts a task for each
notification, which messages the recipient in its own time. Users come, change
and go meanwhile, and broadcasts run side by side.

`broadcast_exact`: a recipient gets one notification of the broadcast at most,
one message about it, if `dm_system` is on, and one message of the broadcast
itself; and the counters of a broadcast that is sent, which are about the latter,
add up to the recipients that were still there.
-/
open Transactions

namespace Garant

/-! ## Audience and texts -/

/-- The columns of `users` that a broadcast reads. -/
structure Recipient where
  tg_user_id : ℤ
  is_admin : Bool
  is_arbiter : Bool
  is_vip : Bool
  last_login_at : Option Time
  deals_total : ℤ
  created_at : Time
  language_code : Option String
  dm_system : Bool
deriving DecidableEq

inductive AudienceRole
  | admin
  | arbiter
  | vip
  | regular
deriving DecidableEq

/-- `AdminBroadcastCreateIn`. -/
structure BroadcastCreate where
  title : String
  body : String
  deeplink : Option String
  audience_role : Option AudienceRole
  audience_active_days : Option ℕ
  audience_min_deals : Option ℕ
  audience_created_after : Option Time
  audience_created_before : Option Time
  audience_language : Option String
  dispatch_inapp : Bool
  dispatch_dm : Bool
deriving DecidableEq

/-- `_audience_filter`, for one row. -/
def audienceFilter (body : BroadcastCreate) (now : Time) (u : Recipient) : Bool :=
  body.audience_role.all (fun
    | .admin => u.is_admin
    | .arbiter => u.is_arbiter
    | .vip => u.is_vip
    | .regular => !u.is_admin && !u.is_arbiter && !u.is_vip) &&
  body.audience_active_days.all (fun n => u.last_login_at.any fun last => now - days n ≤ last) &&
  body.audience_min_deals.all (fun n => (n : ℤ) ≤ u.deals_total) &&
  body.audience_created_after.all (fun after => after ≤ u.created_at) &&
  body.audience_created_before.all (fun before => u.created_at < before) &&
  body.audience_language.all (fun code => u.language_code = some code)

/-- `preview_audience`. -/
def previewAudience (body : BroadcastCreate) (now : Time) (users : Table Recipient) : ℕ :=
  users.count (audienceFilter body now)

/-- `html.escape`. -/
def htmlEscape (s : String) : String :=
  String.ofList (s.toList.flatMap fun c =>
    if c = '&' then "&amp;".toList else if c = '<' then "&lt;".toList else if c = '>' then "&gt;".toList
    else if c.toNat = 34 then "&quot;".toList else if c.toNat = 39 then "&#x27;".toList else [c])

def BroadcastCreate.heading (body : BroadcastCreate) : String :=
  if body.title = "" then "Сообщение от администрации" else body.title

/-- The link, unless it is empty. -/
def BroadcastCreate.link (body : BroadcastCreate) : Option String := body.deeplink.filter (· ≠ "")

/-- The payload of the notification. -/
def BroadcastCreate.payload (body : BroadcastCreate) : Option Json.Value :=
  body.link.map fun link => .obj [(Json.codePoints "deeplink".toList, .str (Json.codePoints link.toList))]

/-- The text of the broadcast's message. -/
def BroadcastCreate.dmText (body : BroadcastCreate) : String :=
  "<b>" ++ htmlEscape body.heading ++ "</b>\n\n" ++ htmlEscape body.body ++
    body.link.elim "" fun link => "\n\n<a href=\"" ++ htmlEscape link ++ "\">" ++ htmlEscape link ++ "</a>"

/-- The text of the message about the notification, by `_format_dm`. -/
def BroadcastCreate.noticeText (body : BroadcastCreate) : String :=
  if body.body = "" then "<b>" ++ htmlEscape body.heading ++ "</b>"
  else "<b>" ++ htmlEscape body.heading ++ "</b>\n" ++ htmlEscape body.body

/-! ## The rows -/

inductive BroadcastStatus
  | sending
  | sent
deriving DecidableEq

/-- A row of `broadcasts`. -/
structure BroadcastRow where
  actor_id : ℕ
  create : BroadcastCreate
  status : BroadcastStatus
  total_recipients : ℕ
  delivered_count : ℕ
  failed_count : ℕ
  sent_at : Option Time
  deleted_at : Option Time
deriving DecidableEq

/-- A message to a recipient, and whether Telegram took it. -/
structure Dm where
  user_id : ℕ
  tg_user_id : ℤ
  text : String
  ok : Bool
deriving DecidableEq

/-- A task of `_dm_dispatch_tasks`: the message about a notification. -/
structure NoticeTask where
  user_id : ℕ
  tg_user_id : ℤ
  text : String
deriving DecidableEq

/-- The messages about a broadcast's notifications: those sent, those whose task
has not run, and the recipients whose event could not be published. -/
structure Notices where
  sent : List Dm
  tasks : List NoticeTask
  skipped : List (ℕ × ℤ)

/-- What a broadcast has done: the ids it has read, the users it has loaded for
them, the notifications it has written for whom and the messages about them, and
whom it has messaged. -/
structure BroadcastLog where
  audience : List ℕ
  loaded : List (ℕ × Recipient)
  notified : List (ℕ × ℕ)
  notices : Notices
  messaged : List Dm

def BroadcastLog.empty : BroadcastLog := ⟨[], [], [], ⟨[], [], []⟩, []⟩

/-- The database, whether events are published, what Telegram answers, which of
the messages on their way goes next, the clock, and what the broadcasts have done. -/
structure BroadcastStore where
  users : Table Recipient
  notifications : Table Notification
  broadcasts : Table BroadcastRow
  publishes : Bool
  reachable : ℤ → Bool
  turn : ℕ
  now : Datetime.Naive
  logs : ℕ → BroadcastLog

/-! ## The statements -/

def _CHUNK_SIZE : ℕ := 500

/-- A broadcast that is being sent. -/
structure Sending where
  id : ℕ
  body : BroadcastCreate
  total : ℕ
  todo : List ℕ
  delivered : ℕ
  failed : ℕ
deriving DecidableEq

/-- The users of a chunk that are there. -/
def BroadcastStore.load (s : BroadcastStore) (ids : List ℕ) : List (ℕ × Recipient) :=
  ids.filterMap fun u => (s.users.row u).map (u, ·)

/-- Whom the broadcast messages. -/
def BroadcastCreate.targets (body : BroadcastCreate) (users : List (ℕ × Recipient)) : List (ℕ × Recipient) :=
  if body.dispatch_dm then users.filter fun u => u.2.tg_user_id ≠ 0 else []

/-- Whose notifications are dispatched. -/
def BroadcastCreate.inapp (body : BroadcastCreate) (users : List (ℕ × Recipient)) : List (ℕ × Recipient) :=
  if body.dispatch_inapp then users else []

/-- `_dm_enabled`: who wants a message about a notification. -/
def dmEnabled (users : List (ℕ × Recipient)) : List (ℕ × Recipient) := users.filter fun u => u.2.dm_system

/-- One notification for each user, and their keys. -/
def notifyAll (encoded_bytes : Json.Value → ℕ) (body : BroadcastCreate) (now : Datetime.Naive) :
    Table Notification → List (ℕ × Recipient) → Table Notification × List (ℕ × ℕ)
  | t, [] => (t, [])
  | t, u :: users =>
    let rest := notifyAll encoded_bytes body now
      (notifierInsert encoded_bytes t u.1 .system body.heading body.body body.payload now) users
    (rest.1, (u.1, t.next) :: rest.2)

/-- A notification needs its user: one that is gone fails the chunk. -/
def BroadcastStore.misses (s : BroadcastStore) (body : BroadcastCreate) (users : List (ℕ × Recipient)) : Bool :=
  body.dispatch_inapp && users.any fun u => (s.users.row u.1).isNone

section
variable (encoded_bytes : Json.Value → ℕ)

/-- A broadcast notes what it has done. -/
def BroadcastStore.record (s : BroadcastStore) (id : ℕ) (f : BroadcastLog → BroadcastLog) : BroadcastStore :=
  { s with logs := Function.update s.logs id (f (s.logs id)) }

/-- The commit of a chunk. -/
def Sending.insertChunk (w : Sending) (users : List (ℕ × Recipient)) (s : BroadcastStore) : BroadcastStore :=
  if s.misses w.body users then s
  else
    let inserted := if w.body.dispatch_inapp then notifyAll encoded_bytes w.body s.now s.notifications users
      else (s.notifications, [])
    { s with notifications := inserted.1 }.record w.id fun log =>
      { log with
        loaded := log.loaded ++ users
        notified := log.notified ++ inserted.2 }

/-- `dispatch_after_commit`. The user is the one that was loaded: the session
still holds it. -/
def Sending.notice (w : Sending) (u : ℕ × Recipient) (s : BroadcastStore) : BroadcastStore :=
  if u.2.dm_system = false then s
  else s.record w.id fun log =>
    { log with notices :=
        if s.publishes then
          { log.notices with tasks := log.notices.tasks ++ [⟨u.1, u.2.tg_user_id, w.body.noticeText⟩] }
        else { log.notices with skipped := log.notices.skipped ++ [(u.1, u.2.tg_user_id)] } }

/-- `_safe_send_dm`: a task runs. -/
def BroadcastStore.runTask (s : BroadcastStore) (id : ℕ) (before after : List NoticeTask) (x : NoticeTask) :
    BroadcastStore :=
  s.record id fun log =>
    { log with notices :=
        { log.notices with
          sent := log.notices.sent ++ [⟨x.user_id, x.tg_user_id, x.text, s.reachable x.tg_user_id⟩]
          tasks := before ++ after } }

/-- The notifications are dispatched one after the other. -/
def Sending.announce (w : Sending) (s : BroadcastStore) : List (ℕ × Recipient) → BroadcastStore
  | [] => s
  | u :: _ => w.notice u s

/-- One message. -/
def Sending.message (w : Sending) (u : ℕ × Recipient) (s : BroadcastStore) : BroadcastStore :=
  s.record w.id fun log =>
    { log with messaged := log.messaged ++ [⟨u.1, u.2.tg_user_id, w.body.dmText, s.reachable u.2.tg_user_id⟩] }

def Sending.counted (w : Sending) (ok : Bool) : Sending :=
  if ok then { w with delivered := w.delivered + 1 } else { w with failed := w.failed + 1 }

/-- The messages of a chunk go in any order; `dispatch` sends the first of those left. -/
def Sending.dispatch (w : Sending) (s : BroadcastStore) : List (ℕ × Recipient) → BroadcastStore
  | [] => s
  | u :: _ => w.message u s

/-- The first commit: the row of the broadcast. -/
def beginBroadcast (actor_id : ℕ) (body : BroadcastCreate) (total : ℕ) (ids : List ℕ) (s : BroadcastStore) :
    BroadcastStore :=
  { s with broadcasts := s.broadcasts.insert ⟨actor_id, body, .sending, total, 0, 0, none, none⟩ }.record
    s.broadcasts.next fun _ => { BroadcastLog.empty with audience := ids }

/-- A commit of the row that belongs to the broadcast. -/
def BroadcastStore.save (s : BroadcastStore) (id : ℕ) (f : BroadcastRow → BroadcastRow) : BroadcastStore :=
  { s with broadcasts := s.broadcasts.mapRows fun i row => if i = id then f row else row }

def Sending.progress (w : Sending) (s : BroadcastStore) : BroadcastStore :=
  s.save w.id fun row => { row with delivered_count := w.delivered, failed_count := w.failed, status := .sending }

def Sending.finish (w : Sending) (s : BroadcastStore) : BroadcastStore :=
  s.save w.id fun row =>
    { row with
      status := .sent
      total_recipients := w.total
      delivered_count := w.delivered
      failed_count := w.failed
      sent_at := some s.now }

/-- Where a request is. -/
inductive BroadcastPc
  | count (actor_id : ℕ) (body : BroadcastCreate)
  | snapshot (actor_id : ℕ) (body : BroadcastCreate) (now : Time) (total : ℕ)
  | begin (actor_id : ℕ) (body : BroadcastCreate) (total : ℕ) (ids : List ℕ)
  | chunk (w : Sending)
  | insert (w : Sending) (users : List (ℕ × Recipient))
  | announce (w : Sending) (todo targets : List (ℕ × Recipient))
  | message (w : Sending) (todo : List (ℕ × Recipient))
  | progress (w : Sending)
  | finish (w : Sending)
  | crashed (w : Sending)
  | sent

/-- `for chunk_start in range(...)`. -/
def Sending.next (w : Sending) : BroadcastPc := if w.todo = [] then .finish w else .chunk w

/-- The result of a message, or the end of the chunk. -/
def Sending.dispatched (w : Sending) (s : BroadcastStore) : List (ℕ × Recipient) → BroadcastPc
  | [] => .progress w
  | u :: todo => .message (w.counted (s.reachable u.2.tg_user_id)) todo

/-- The rest of the notifications, or the messages. -/
def Sending.announced (w : Sending) (targets : List (ℕ × Recipient)) : List (ℕ × Recipient) → BroadcastPc
  | [] => .message w targets
  | _ :: todo => .announce w todo targets

/-- The next statement. -/
def BroadcastPc.move : BroadcastPc → Move BroadcastStore Empty BroadcastPc
  | .count actor body => .read fun s => .snapshot actor body s.now (previewAudience body s.now s.users)
  | .snapshot actor body now total => .read fun s => .begin actor body total (s.users.ids (audienceFilter body now))
  | .begin actor body total ids => .commit (beginBroadcast actor body total ids) fun s =>
    Sending.next ⟨s.broadcasts.next, body, total, ids, 0, 0⟩
  | .chunk w => .read fun s =>
    .insert { w with todo := w.todo.drop _CHUNK_SIZE } (s.load (w.todo.take _CHUNK_SIZE))
  | .insert w users => .commit (w.insertChunk encoded_bytes users) fun s =>
    if s.misses w.body users then .crashed w
    else
      let targets := w.body.targets users
      -- who is not messaged counts as delivered
      .announce { w with delivered := w.delivered + (users.length - targets.length) } (w.body.inapp users) targets
  | .announce w todo targets => .exchange (fun s => w.announce s todo) fun _ => w.announced targets todo
  | .message w todo =>
    .exchange (fun s => w.dispatch s (todo.rotate s.turn)) fun s => w.dispatched s (todo.rotate s.turn)
  | .progress w => .commit w.progress fun _ => w.next
  | .finish w => .commit w.finish fun _ => .sent
  | .crashed _ | .sent => .done

/-- A broadcast is asked for. -/
structure BroadcastOp where
  actor_id : ℕ
  body : BroadcastCreate

def BroadcastOp.entry (op : BroadcastOp) : BroadcastPc := .count op.actor_id op.body

/-- The row is the same, deleted or not. -/
def BroadcastRow.Same (row row' : BroadcastRow) : Prop := row' = { row with deleted_at := row'.deleted_at }

/-- Users come, change and go, unless all of them `stay`, notifications come, are
read and go, broadcasts are deleted, events get through or do not, recipients
block the bot, and another message has its turn. -/
structure OtherRows (stay : Prop) (s t : BroadcastStore) : Prop where
  users : stay → ∀ u, (s.users.row u).isSome → (t.users.row u).isSome
  notifications : SameRows s.notifications t.notifications
  next : t.broadcasts.next = s.broadcasts.next
  broadcasts : ∀ b row, s.broadcasts.row b = some row → ∃ row', t.broadcasts.row b = some row' ∧ row.Same row'
  absent : ∀ b, s.broadcasts.row b = none → t.broadcasts.row b = none
  logs : t.logs = s.logs

/-- What happens elsewhere: rows change, and tasks run. -/
inductive BroadcastsElsewhere (stay : Prop) (s : BroadcastStore) : BroadcastStore → Prop
  | rows {t : BroadcastStore} (h : OtherRows stay s t) : BroadcastsElsewhere stay s t
  | task {b : ℕ} {before after : List NoticeTask} {x : NoticeTask} (h : (s.logs b).notices.tasks = before ++ x :: after) :
      BroadcastsElsewhere stay s (s.runTask b before after x)

abbrev BroadcastSys := Transactions.Sys BroadcastStore Empty BroadcastPc

def BroadcastStep (stay : Prop) : Event BroadcastOp → BroadcastSys → BroadcastSys → Prop :=
  Transactions.Step (BroadcastPc.move encoded_bytes) BroadcastOp.entry (BroadcastsElsewhere stay)

end

/-! ## One chunk -/

section
variable {encoded_bytes : Json.Value → ℕ} {body : BroadcastCreate} {t t' : Table Notification} {now : Datetime.Naive}
  {users users' : List (ℕ × Recipient)} {s : BroadcastStore}

theorem targets_append : body.targets (users ++ users') = body.targets users ++ body.targets users' := by
  unfold BroadcastCreate.targets
  split
  · exact List.filter_append ..
  · rfl

theorem inapp_append : body.inapp (users ++ users') = body.inapp users ++ body.inapp users' := by
  unfold BroadcastCreate.inapp
  split <;> rfl

theorem dmEnabled_append : dmEnabled (users ++ users') = dmEnabled users ++ dmEnabled users' := List.filter_append ..

theorem inapp_sublist : (body.inapp users).Sublist users := by
  unfold BroadcastCreate.inapp
  split
  · exact .refl _
  · exact List.nil_sublist _

theorem targets_sublist : (body.targets users).Sublist users := by
  unfold BroadcastCreate.targets
  split
  · exact List.filter_sublist
  · exact List.nil_sublist _

/-- A notification of the broadcast for the user, if it is still there. -/
def Notifies (body : BroadcastCreate) (t : Table Notification) (m : ℕ × ℕ) : Prop :=
  m.2 < t.next ∧ ∀ n, t.row m.2 = some n →
    n.recipient_id = m.1 ∧ n.type = .system ∧ n.title = body.heading ∧ n.body = body.body

theorem Notifies.mono {m : ℕ × ℕ} (h : Notifies body t m) (hsame : SameRows t t') : Notifies body t' m := by
  refine ⟨h.1.trans_le hsame.next, ?_⟩
  intro n' hn'
  obtain ⟨n, hn, hrel⟩ := hsame.row m.2 n' h.1 hn'
  rw [hrel]
  exact h.2 n hn

/-- One new notification for each user, under a key of its own. -/
theorem notifyAll_spec : SameRows t (notifyAll encoded_bytes body now t users).1 ∧
    (notifyAll encoded_bytes body now t users).2.map Prod.fst = users.map Prod.fst ∧
    (notifyAll encoded_bytes body now t users).2.map Prod.snd = List.range' t.next users.length ∧
    ∀ m ∈ (notifyAll encoded_bytes body now t users).2,
      Notifies body (notifyAll encoded_bytes body now t users).1 m := by
  induction users generalizing t with
  | nil => exact ⟨.refl .refl t, rfl, rfl, fun m hm => absurd hm List.not_mem_nil⟩
  | cons u users ih =>
    obtain ⟨hsame, hids, hkeys, hrows⟩ :=
      ih (t := notifierInsert encoded_bytes t u.1 .system body.heading body.body body.payload now)
    have hinsert : SameRows t (notifierInsert encoded_bytes t u.1 .system body.heading body.body body.payload now) :=
      Table.evolves_insert .refl
    refine ⟨hinsert.trans .trans hsame, ?_, ?_, ?_⟩
    · exact congrArg (u.1 :: ·) hids
    · exact congrArg (t.next :: ·) hkeys
    · intro m hm
      rcases List.mem_cons.1 hm with rfl | hm
      · refine Notifies.mono ⟨Nat.lt_succ_self _, ?_⟩ hsame
        intro n hn
        rw [notifierInsert, Table.insert_row, if_pos rfl] at hn
        cases hn
        exact ⟨rfl, rfl, rfl, rfl⟩
      · exact hrows m hm

theorem load_ids {ids : List ℕ} : ((s.load ids).map Prod.fst).Sublist ids := by
  induction ids with
  | nil => exact .slnil
  | cons u ids ih =>
    unfold BroadcastStore.load at ih ⊢
    rw [List.filterMap_cons]
    split
    · exact ih.cons u
    · rename_i x hx
      obtain ⟨r, -, rfl⟩ := Option.map_eq_some_iff.1 hx
      exact ih.cons_cons u

/-- Whoever is there is loaded. -/
theorem load_all {ids : List ℕ} (h : ∀ u ∈ ids, (s.users.row u).isSome) : (s.load ids).map Prod.fst = ids := by
  induction ids with
  | nil => rfl
  | cons u ids ih =>
    obtain ⟨r, hr⟩ := Option.isSome_iff_exists.1 (h u List.mem_cons_self)
    have hrest := ih fun v hv => h v (List.mem_cons_of_mem _ hv)
    unfold BroadcastStore.load at hrest ⊢
    rw [List.filterMap_cons, hr]
    exact congrArg (u :: ·) hrest

end

/-! ## What a broadcast has done -/

/-- Whom, as the messages name them. -/
def addresses (users : List (ℕ × Recipient)) : List (ℕ × ℤ) := users.map fun u => (u.1, u.2.tg_user_id)

def BroadcastLog.messages (log : BroadcastLog) : List (ℕ × ℤ) := log.messaged.map fun d => (d.user_id, d.tg_user_id)

def BroadcastLog.rejected (log : BroadcastLog) : ℕ := log.messaged.countP fun d => !d.ok

/-- Whom the messages about the notifications are for, sent or not. -/
def Notices.all (n : Notices) : List (ℕ × ℤ) :=
  (n.sent.map fun d => (d.user_id, d.tg_user_id)) ++ (n.tasks.map fun x => (x.user_id, x.tg_user_id)) ++ n.skipped

/-- Every message about a notification says what the notification does. -/
def Notices.Says (n : Notices) (text : String) : Prop := (∀ d ∈ n.sent, d.text = text) ∧ ∀ x ∈ n.tasks, x.text = text

/-- The recipients are users of the audience, none twice; each has one
notification, if the broadcast notifies, and the messages about them are for
those who want them; and those messaged so far are among those it messages. -/
structure BroadcastLog.Ok (notifications : Table Notification) (body : BroadcastCreate) (log : BroadcastLog) :
    Prop where
  audience : log.audience.Nodup
  loaded : (log.loaded.map Prod.fst).Sublist log.audience
  notified : log.notified.map Prod.fst = if body.dispatch_inapp then log.loaded.map Prod.fst else []
  keys : (log.notified.map Prod.snd).Nodup
  rows : ∀ m ∈ log.notified, Notifies body notifications m
  noticed : log.notices.all.Subperm (addresses (dmEnabled (body.inapp log.loaded)))
  notices : log.notices.Says body.noticeText
  messaged : log.messages.Subperm (addresses (body.targets log.loaded))
  texts : ∀ d ∈ log.messaged, d.text = body.dmText

/-- The row of a broadcast next to what the broadcast has done. -/
structure BroadcastRow.Ok (stay : Prop) (s : BroadcastStore) (row : BroadcastRow) (log : BroadcastLog) : Prop where
  noted : log.Ok s.notifications row.create
  counted : row.delivered_count + row.failed_count ≤ log.loaded.length
  sent : row.status = .sent → row.delivered_count + row.failed_count = log.loaded.length ∧
    row.failed_count = log.rejected ∧ log.messages.Perm (addresses (row.create.targets log.loaded)) ∧
    log.notices.all.Perm (addresses (dmEnabled (row.create.inapp log.loaded))) ∧
      (stay → log.loaded.map Prod.fst = log.audience)

def BroadcastStore.Ok (stay : Prop) (s : BroadcastStore) : Prop :=
  ∀ b row, s.broadcasts.row b = some row → row.Ok stay s (s.logs b)

/-- A broadcast that goes on, with the ids of a chunk in hand, the notifications
of `silent` still to be dispatched and `pending` still to be messaged. -/
structure Sending.Going (stay : Prop) (s : BroadcastStore) (w : Sending) (chunk : List ℕ)
    (silent pending : List (ℕ × Recipient)) : Prop where
  row : ∃ row, s.broadcasts.row w.id = some row ∧ row.status = .sending ∧ row.create = w.body
  audience : ∃ seen, (s.logs w.id).audience = seen ++ (chunk ++ w.todo) ∧
    ((s.logs w.id).loaded.map Prod.fst).Sublist seen ∧ (stay → (s.logs w.id).loaded.map Prod.fst = seen)
  there : stay → ∀ u ∈ (s.logs w.id).audience, (s.users.row u).isSome
  counted : w.delivered + w.failed + pending.length = (s.logs w.id).loaded.length
  failed : w.failed = (s.logs w.id).rejected
  noticed : ((s.logs w.id).notices.all ++ addresses (dmEnabled silent)).Perm
    (addresses (dmEnabled (w.body.inapp (s.logs w.id).loaded)))
  messaged : ((s.logs w.id).messages ++ addresses pending).Perm (addresses (w.body.targets (s.logs w.id).loaded))

/-- What a request knows. -/
def BroadcastPc.Sound (stay : Prop) (s : BroadcastStore) : BroadcastPc → Prop
  | .begin _ _ _ ids => ids.Nodup ∧ (stay → ∀ u ∈ ids, (s.users.row u).isSome)
  | .chunk w | .progress w => w.Going stay s [] [] []
  | .finish w => w.todo = [] ∧ w.Going stay s [] [] []
  | .insert w users => ∃ chunk, w.Going stay s chunk [] [] ∧ (users.map Prod.fst).Sublist chunk ∧
      (stay → users.map Prod.fst = chunk)
  | .announce w todo targets => w.Going stay s [] todo targets
  | .message w todo => w.Going stay s [] [] todo
  | .crashed w => ¬stay ∧ ∃ row, s.broadcasts.row w.id = some row ∧ row.status = .sending
  | _ => True

/-- The broadcast a request is sending. -/
def BroadcastPc.broadcast : BroadcastPc → Option ℕ
  | .chunk w | .insert w _ | .announce w _ _ | .message w _ | .progress w | .finish w | .crashed w => some w.id
  | _ => none

/-- Nothing has been done but what tasks do. -/
structure BroadcastLog.Same (log log' : BroadcastLog) : Prop where
  audience : log'.audience = log.audience
  loaded : log'.loaded = log.loaded
  notified : log'.notified = log.notified
  messaged : log'.messaged = log.messaged
  notices : log'.notices.all.Perm log.notices.all

/-- Nothing but a deletion and tasks that have run has happened to the broadcast. -/
structure SameBroadcast (s t : BroadcastStore) (b : ℕ) : Prop where
  logs : (s.logs b).Same (t.logs b)
  row : ∀ row, s.broadcasts.row b = some row → ∃ row', t.broadcasts.row b = some row' ∧ row.Same row'

section
variable {stay : Prop} {encoded_bytes : Json.Value → ℕ} {s t : BroadcastStore} {w : Sending} {chunk : List ℕ}
  {b i : ℕ} {silent pending users : List (ℕ × Recipient)} {row row' : BroadcastRow} {log : BroadcastLog} {pc : BroadcastPc}

theorem addresses_append {users' : List (ℕ × Recipient)} :
    addresses (users ++ users') = addresses users ++ addresses users' := List.map_append

theorem BroadcastRow.Same.refl : row.Same row := rfl

theorem BroadcastLog.Ok.mono {n n' : Table Notification} {body : BroadcastCreate} (h : log.Ok n body)
    (hsame : SameRows n n') : log.Ok n' body :=
  { h with rows := fun m hm => (h.rows m hm).mono hsame }

theorem BroadcastRow.Ok.mono (h : row.Ok stay s log) (hsame : SameRows s.notifications t.notifications)
    (hrow : row.Same row') : row'.Ok stay t log := by
  rw [hrow]
  exact ⟨h.noted.mono hsame, h.counted, h.sent⟩

theorem BroadcastLog.Same.refl : log.Same log := ⟨rfl, rfl, rfl, rfl, .rfl⟩

theorem Sending.Going.mono (h : w.Going stay s chunk silent pending) (hsame : SameBroadcast s t w.id)
    (hthere : stay → ∀ u, (s.users.row u).isSome → (t.users.row u).isSome) : w.Going stay t chunk silent pending := by
  obtain ⟨row, hrow, hstatus, hcreate⟩ := h.row
  obtain ⟨row', hrow', hrel⟩ := hsame.row row hrow
  obtain ⟨haudience, hloaded, -, hmessaged, hnotices⟩ := hsame.logs
  constructor
  · exact ⟨row', hrow', by rw [hrel]; exact hstatus, by rw [hrel]; exact hcreate⟩
  · rw [haudience, hloaded]
    exact h.audience
  · rw [haudience]
    exact fun hstay u hu => hthere hstay u (h.there hstay u hu)
  · rw [hloaded]
    exact h.counted
  · rw [BroadcastLog.rejected, hmessaged]
    exact h.failed
  · rw [hloaded]
    exact (hnotices.append_right _).trans h.noticed
  · rw [BroadcastLog.messages, hmessaged, hloaded]
    exact h.messaged

theorem BroadcastPc.Sound.mono (h : pc.Sound stay s) (hsame : ∀ b, pc.broadcast = some b → SameBroadcast s t b)
    (hthere : stay → ∀ u, (s.users.row u).isSome → (t.users.row u).isSome) : pc.Sound stay t := by
  cases pc with
  | begin _ _ _ ids => exact ⟨h.1, fun hstay u hu => hthere hstay u (h.2 hstay u hu)⟩
  | chunk w | progress w => exact Sending.Going.mono h (hsame w.id rfl) hthere
  | announce w todo targets => exact Sending.Going.mono h (hsame w.id rfl) hthere
  | message w todo => exact Sending.Going.mono h (hsame w.id rfl) hthere
  | finish w => exact ⟨h.1, h.2.mono (hsame w.id rfl) hthere⟩
  | insert w users =>
    obtain ⟨chunk, hgoing, hsub, hall⟩ := h
    exact ⟨chunk, hgoing.mono (hsame w.id rfl) hthere, hsub, hall⟩
  | crashed w =>
    obtain ⟨hstay, row, hrow, hstatus⟩ := h
    obtain ⟨row', hrow', hrel⟩ := (hsame w.id rfl).row row hrow
    exact ⟨hstay, row', hrow', by rw [hrel]; exact hstatus⟩
  | _ => trivial

theorem SameBroadcast.refl : SameBroadcast s s b := ⟨.refl, fun row hrow => ⟨row, hrow, .refl⟩⟩

/-! ## What a statement does -/

theorem record_logs {f : BroadcastLog → BroadcastLog} : (s.record i f).logs i = f (s.logs i) := Function.update_self ..

theorem SameBroadcast.record {n : Table Notification} {f : BroadcastLog → BroadcastLog} (hb : b ≠ i) :
    SameBroadcast s ({ s with notifications := n }.record i f) b := by
  have hlogs : ({ s with notifications := n }.record i f).logs b = s.logs b := Function.update_of_ne hb ..
  exact ⟨hlogs ▸ .refl, fun row hrow => ⟨row, hrow, .refl⟩⟩

theorem SameBroadcast.save {f : BroadcastRow → BroadcastRow} (hb : b ≠ i) : SameBroadcast s (s.save i f) b := by
  refine ⟨.refl, fun row hrow => ⟨row, ?_, .refl⟩⟩
  simp only [BroadcastStore.save, Table.mapRows_row, hrow, Option.map_some, if_neg hb]

theorem save_row {f : BroadcastRow → BroadcastRow} (h : s.broadcasts.row i = some row) :
    (s.save i f).broadcasts.row i = some (f row) := by
  simp only [BroadcastStore.save, Table.mapRows_row, h, Option.map_some, if_pos]

/-- A commit of one row, if the row is right after it. -/
theorem BroadcastStore.Ok.save {f : BroadcastRow → BroadcastRow} (h : s.Ok stay)
    (hf : ∀ row, s.broadcasts.row i = some row → (f row).Ok stay s (s.logs i)) : (s.save i f).Ok stay := by
  intro b row hrow
  simp only [BroadcastStore.save, Table.mapRows_row, Option.map_eq_some_iff] at hrow
  obtain ⟨row, hrow, rfl⟩ := hrow
  split
  · rename_i hb
    subst hb
    exact ⟨(hf row hrow).noted, (hf row hrow).counted, (hf row hrow).sent⟩
  · exact ⟨(h b row hrow).noted, (h b row hrow).counted, (h b row hrow).sent⟩

/-- A note of one broadcast, and new notifications, if its row is right after it. -/
theorem BroadcastStore.Ok.record {n : Table Notification} {f : BroadcastLog → BroadcastLog} (h : s.Ok stay)
    (hsame : SameRows s.notifications n)
    (hf : ∀ row, s.broadcasts.row i = some row → row.Ok stay { s with notifications := n } (f (s.logs i))) :
    ({ s with notifications := n }.record i f).Ok stay := by
  intro b row hrow
  by_cases hb : b = i
  · subst hb
    rw [record_logs]
    exact ⟨(hf row hrow).noted, (hf row hrow).counted, (hf row hrow).sent⟩
  · have hlogs : ({ s with notifications := n }.record i f).logs b = s.logs b := Function.update_of_ne hb ..
    rw [hlogs]
    exact (h b row hrow).mono hsame .refl

theorem addresses_nil : addresses [] = [] := rfl

theorem targets_nil {body : BroadcastCreate} : body.targets [] = [] := by
  unfold BroadcastCreate.targets
  split <;> rfl

theorem dmEnabled_nil : dmEnabled [] = [] := rfl

theorem inapp_nil {body : BroadcastCreate} : body.inapp [] = [] := by
  unfold BroadcastCreate.inapp
  split <;> rfl

theorem loaded_subset (h : w.Going stay s chunk silent pending) : ∀ u ∈ chunk ++ w.todo, u ∈ (s.logs w.id).audience := by
  obtain ⟨seen, haudience, -⟩ := h.audience
  intro u hu
  rw [haudience]
  exact List.mem_append_right seen hu

/-- The row of a broadcast that goes on says nothing of its end. -/
theorem Sending.Going.unsent (h : w.Going stay s chunk silent pending) (hrow : s.broadcasts.row w.id = some row) :
    row.status ≠ .sent ∧ row.create = w.body := by
  obtain ⟨row', hrow', hstatus, hcreate⟩ := h.row
  cases hrow.symm.trans hrow'
  exact ⟨by rw [hstatus]; rintro ⟨⟩, hcreate⟩

/-- What a statement does: the rows stay right, the request knows what its next
statement needs, and no other broadcast notices. -/
structure Goes (stay : Prop) (s : BroadcastStore) (p p' : BroadcastPc) (u : BroadcastStore) : Prop where
  ok : u.Ok stay
  sound : p'.Sound stay u
  users : u.users = s.users
  others : ∀ b row, s.broadcasts.row b = some row → p.broadcast ≠ some b → SameBroadcast s u b
  broadcast : ∀ b, p'.broadcast = some b → p.broadcast = some b ∨ s.broadcasts.row b = none

theorem next_sound (h : w.Going stay s [] [] []) : w.next.Sound stay s := by
  unfold Sending.next
  split
  · next hnil => exact ⟨hnil, h⟩
  · exact h

theorem next_broadcast : w.next.broadcast = some w.id := by
  unfold Sending.next
  split <;> rfl

/-- The row and the note of a new broadcast. -/
theorem begin_goes {actor total : ℕ} {body : BroadcastCreate} {ids : List ℕ} (hI : s.Ok stay)
    (hL : (BroadcastPc.begin actor body total ids).Sound stay s) :
    Goes stay s (.begin actor body total ids) (Sending.next ⟨s.broadcasts.next, body, total, ids, 0, 0⟩)
      (beginBroadcast actor body total ids s) := by
  have hlog : (beginBroadcast actor body total ids s).logs s.broadcasts.next =
      { BroadcastLog.empty with audience := ids } := record_logs
  have hrow : (beginBroadcast actor body total ids s).broadcasts.row s.broadcasts.next =
      some ⟨actor, body, .sending, total, 0, 0, none, none⟩ := if_pos rfl
  have hothers : ∀ b, b ≠ s.broadcasts.next → SameBroadcast s (beginBroadcast actor body total ids s) b := by
    intro b hb
    have hlogs : (beginBroadcast actor body total ids s).logs b = s.logs b := Function.update_of_ne hb ..
    exact ⟨hlogs ▸ .refl, fun row hrow => ⟨row, (if_neg hb).trans hrow, .refl⟩⟩
  constructor
  · intro b row hb
    by_cases hnext : b = s.broadcasts.next
    · subst hnext
      cases hrow.symm.trans hb
      rw [hlog]
      refine ⟨⟨hL.1, List.nil_sublist _, ?_, List.nodup_nil, ?_, List.nil_subperm, ⟨?_, ?_⟩, List.nil_subperm, ?_⟩,
        le_rfl, by rintro ⟨⟩⟩
      · split <;> rfl
      · exact fun m hm => absurd hm List.not_mem_nil
      · exact fun d hd => absurd hd List.not_mem_nil
      · exact fun x hx => absurd hx List.not_mem_nil
      · exact fun m hm => absurd hm List.not_mem_nil
    · have hlogs : (beginBroadcast actor body total ids s).logs b = s.logs b := Function.update_of_ne hnext ..
      rw [hlogs]
      have hold : s.broadcasts.row b = some row := (if_neg hnext).symm.trans hb
      exact ⟨(hI b row hold).noted, (hI b row hold).counted, (hI b row hold).sent⟩
  · refine next_sound ⟨⟨_, hrow, rfl, rfl⟩, ⟨[], ?_, ?_⟩, ?_, ?_, ?_, ?_, ?_⟩ <;> dsimp only <;> rw [hlog]
    · rfl
    · exact ⟨.slnil, fun _ => rfl⟩
    · exact hL.2
    · rfl
    · rfl
    · show List.Perm _ (addresses (dmEnabled (body.inapp [])))
      rw [inapp_nil]
      rfl
    · show List.Perm _ (addresses (body.targets []))
      rw [targets_nil]
      rfl
  · rfl
  · intro b row hb _
    exact hothers b (Table.lt_next hb).ne
  · intro b hb
    rw [next_broadcast] at hb
    cases hb
    exact .inr (s.broadcasts.fresh _ le_rfl)

/-- The users of the next chunk. -/
theorem chunk_sound (h : w.Going stay s [] [] []) :
    (BroadcastPc.insert { w with todo := w.todo.drop _CHUNK_SIZE }
      (s.load (w.todo.take _CHUNK_SIZE))).Sound stay s := by
  have hgoing : Sending.Going stay s { w with todo := w.todo.drop _CHUNK_SIZE } (w.todo.take _CHUNK_SIZE) [] [] := by
    refine ⟨h.row, ?_, h.there, h.counted, h.failed, h.noticed, h.messaged⟩
    obtain ⟨seen, haudience, hrest⟩ := h.audience
    refine ⟨seen, ?_, hrest⟩
    dsimp only
    rw [haudience, List.take_append_drop]
    rfl
  refine ⟨_, hgoing, load_ids, fun hstay => load_all fun u hu => ?_⟩
  exact h.there hstay u (loaded_subset hgoing u (List.mem_append_left _ hu))

/-- The commit of a chunk: what the broadcast notes keeps its shape. -/
theorem BroadcastLog.Ok.insertChunk {n : Table Notification} {body : BroadcastCreate}
    {now : Datetime.Naive} {seen rest : List ℕ}
    (h : log.Ok n body) (haudience : log.audience = seen ++ (chunk ++ rest))
    (hseen : (log.loaded.map Prod.fst).Sublist seen) (husers : (users.map Prod.fst).Sublist chunk) :
    BroadcastLog.Ok (if body.dispatch_inapp then notifyAll encoded_bytes body now n users else (n, [])).1 body
      { log with
        loaded := log.loaded ++ users
        notified := log.notified ++
          (if body.dispatch_inapp then notifyAll encoded_bytes body now n users else (n, [])).2 } := by
  obtain ⟨hsame, hids, hkeys, hrows⟩ := @notifyAll_spec encoded_bytes body n now users
  have hloaded : ((log.loaded ++ users).map Prod.fst).Sublist log.audience := by
    rw [List.map_append, haudience]
    exact hseen.append (husers.trans (List.sublist_append_left ..))
  have hmessaged : log.messages.Subperm (addresses (body.targets (log.loaded ++ users))) := by
    rw [targets_append, addresses_append]
    exact h.messaged.trans (List.sublist_append_left ..).subperm
  have hnoticed : log.notices.all.Subperm (addresses (dmEnabled (body.inapp (log.loaded ++ users)))) := by
    rw [inapp_append, dmEnabled_append, addresses_append]
    exact h.noticed.trans (List.sublist_append_left ..).subperm
  have hnotified := h.notified
  by_cases hinapp : body.dispatch_inapp = true
  · simp only [if_pos hinapp] at hnotified ⊢
    refine ⟨h.audience, hloaded, ?_, ?_, ?_, hnoticed, h.notices, hmessaged, h.texts⟩
    · rw [if_pos hinapp, List.map_append, List.map_append, hnotified, hids]
    · rw [List.map_append, hkeys]
      refine h.keys.append List.nodup_range' ?_
      -- the keys handed out before are below the next one
      intro k hk hk'
      obtain ⟨m, hm, rfl⟩ := List.mem_map.1 hk
      exact absurd (h.rows m hm).1 (not_lt.2 (List.mem_range'_1.1 hk').1)
    · intro m hm
      rcases List.mem_append.1 hm with hm | hm
      · exact (h.rows m hm).mono hsame
      · exact hrows m hm
  · simp only [if_neg hinapp, List.append_nil] at hnotified ⊢
    refine ⟨h.audience, hloaded, ?_, h.keys, h.rows, hnoticed, h.notices, hmessaged, h.texts⟩
    rw [if_neg hinapp]
    exact hnotified

/-- The commit of a chunk, unless a user has gone. -/
theorem insert_goes (hI : s.Ok stay) (hL : (BroadcastPc.insert w users).Sound stay s)
    (hmisses : s.misses w.body users = false) :
    Goes stay s (.insert w users)
      (.announce { w with delivered := w.delivered + (users.length - (w.body.targets users).length) }
        (w.body.inapp users) (w.body.targets users))
      (w.insertChunk encoded_bytes users s) := by
  obtain ⟨chunk, hgoing, hsub, hall⟩ := hL
  obtain ⟨seen, haudience, hseen, hstayed⟩ := hgoing.audience
  rw [Sending.insertChunk, if_neg (by rw [hmisses]; exact Bool.false_ne_true)]
  have hsame : SameRows s.notifications
      (if w.body.dispatch_inapp then notifyAll encoded_bytes w.body s.now s.notifications users
        else (s.notifications, [])).1 := by
    split
    · exact notifyAll_spec.1
    · exact .refl .refl s.notifications
  constructor
  · refine hI.record hsame fun row hrow => ?_
    obtain ⟨hunsent, hcreate⟩ := hgoing.unsent hrow
    have hok := hI w.id row hrow
    refine ⟨?_, ?_, fun hsent => absurd hsent hunsent⟩
    · rw [hcreate]
      exact (hcreate ▸ hok.noted).insertChunk haudience hseen hsub
    · exact hok.counted.trans (by rw [List.length_append]; omega)
  · have hlength : (w.body.targets users).length ≤ users.length := targets_sublist.length_le
    have hcounted := hgoing.counted
    have hmessaged := hgoing.messaged
    have hnoticed := hgoing.noticed
    rw [addresses_nil, List.append_nil] at hmessaged
    rw [dmEnabled_nil, addresses_nil, List.append_nil] at hnoticed
    refine ⟨hgoing.row, ?_, ?_, ?_, ?_, ?_, ?_⟩ <;> dsimp only <;> rw [record_logs] <;> dsimp only
    · refine ⟨seen ++ chunk, by rw [haudience, List.nil_append, List.append_assoc], ?_, fun hstay => ?_⟩
      · rw [List.map_append]
        exact hseen.append hsub
      · rw [List.map_append, hstayed hstay, hall hstay]
    · exact hgoing.there
    · rw [List.length_append]
      rw [List.length_nil] at hcounted
      omega
    · exact hgoing.failed
    · rw [inapp_append, dmEnabled_append, addresses_append]
      exact hnoticed.append_right _
    · rw [targets_append, addresses_append]
      exact hmessaged.append_right _
  · rfl
  · intro b row hrow hb
    exact .record fun h => hb (congrArg some h.symm)
  · intro b hb
    exact .inl hb

/-- A user who has gone is not one that stays. -/
theorem crash_sound (hL : (BroadcastPc.insert w users).Sound stay s) (hmisses : s.misses w.body users = true) :
    (BroadcastPc.crashed w).Sound stay s := by
  obtain ⟨chunk, hgoing, hsub, -⟩ := hL
  obtain ⟨row, hrow, hstatus, -⟩ := hgoing.row
  refine ⟨fun hstay => ?_, row, hrow, hstatus⟩
  -- whoever was loaded is of the audience, and all of it is still there
  obtain ⟨u, hu, hgone⟩ := List.any_eq_true.1 (Bool.and_eq_true_iff.1 hmisses).2
  have hthere := hgoing.there hstay u.1
    (loaded_subset hgoing u.1 (List.mem_append_left _ (hsub.subset (List.mem_map_of_mem hu))))
  rw [Option.isNone_iff_eq_none.1 hgone] at hthere
  cases hthere

/-- One notification is dispatched. -/
theorem notice_goes {v : ℕ × Recipient} (hI : s.Ok stay) (hgoing : w.Going stay s [] (v :: silent) pending) :
    Goes stay s (.announce w (v :: silent) pending) (.announce w silent pending) (w.notice v s) := by
  have hnoticed := hgoing.noticed
  by_cases hdm : v.2.dm_system = true
  · have hcons : dmEnabled (v :: silent) = v :: dmEnabled silent := List.filter_cons_of_pos hdm
    rw [hcons] at hnoticed
    rw [Sending.notice, if_neg (by simp [hdm])]
    -- the task, or the failure to publish, is noted for the recipient
    have hall : ∀ n : Notices, (if s.publishes then
          { n with tasks := n.tasks ++ [⟨v.1, v.2.tg_user_id, w.body.noticeText⟩] }
        else { n with skipped := n.skipped ++ [(v.1, v.2.tg_user_id)] } : Notices).all.Perm
        (n.all ++ [(v.1, v.2.tg_user_id)]) := by
      intro n
      split
      · rw [List.perm_iff_count]
        intro a
        simp only [Notices.all, List.map_append, List.count_append, List.map_cons, List.map_nil]
        omega
      · rw [Notices.all, Notices.all, ← List.append_assoc]
    have hdone : (((s.logs w.id).notices.all ++ [(v.1, v.2.tg_user_id)]) ++ addresses (dmEnabled silent)).Perm
        (addresses (dmEnabled (w.body.inapp (s.logs w.id).loaded))) := by
      rw [List.append_assoc]
      exact hnoticed
    constructor
    · refine hI.record (.refl .refl s.notifications) fun row hrow => ?_
      obtain ⟨hunsent, hcreate⟩ := hgoing.unsent hrow
      have hok := (hI w.id row hrow).noted
      refine ⟨{ hok with noticed := ?_, notices := ?_ }, (hI w.id row hrow).counted, fun hsent => absurd hsent hunsent⟩
      · rw [hcreate]
        exact (hall _).subperm.trans ((List.sublist_append_left ..).subperm.trans hdone.subperm)
      · refine ⟨fun d hd => ?_, fun x hx => ?_⟩
        · refine hok.notices.1 d ?_
          dsimp only at hd
          split at hd <;> exact hd
        · dsimp only at hx
          split at hx
          · rcases List.mem_append.1 hx with hx | hx
            · exact hok.notices.2 x hx
            · rw [List.mem_singleton.1 hx, hcreate]
          · exact hok.notices.2 x hx
    · refine ⟨hgoing.row, ?_, ?_, ?_, ?_, ?_, ?_⟩ <;> rw [record_logs]
      · exact hgoing.audience
      · exact hgoing.there
      · exact hgoing.counted
      · exact hgoing.failed
      · exact ((hall _).append_right _).trans hdone
      · exact hgoing.messaged
    · rfl
    · intro b row hrow hb
      exact .record fun h => hb (congrArg some h.symm)
    · intro b hb
      exact .inl hb
  · have hcons : dmEnabled (v :: silent) = dmEnabled silent := List.filter_cons_of_neg hdm
    rw [hcons] at hnoticed
    rw [Sending.notice, if_pos (by simpa using hdm)]
    exact ⟨hI, { hgoing with noticed := hnoticed }, rfl, fun _ _ _ _ => .refl, fun _ hb => .inl hb⟩

theorem counted_same {ok : Bool} :
    (w.counted ok).id = w.id ∧ (w.counted ok).body = w.body ∧ (w.counted ok).todo = w.todo := by
  unfold Sending.counted
  split <;> exact ⟨rfl, rfl, rfl⟩

/-- One message, taken by Telegram or not. -/
theorem message_goes {v : ℕ × Recipient} (hI : s.Ok stay) (hgoing : w.Going stay s [] [] users)
    (hnext : (v :: pending).Perm users) :
    Goes stay s (.message w users) (.message (w.counted (s.reachable v.2.tg_user_id)) pending) (w.message v s) := by
  obtain ⟨hid, hbody, htodo⟩ := @counted_same w (s.reachable v.2.tg_user_id)
  have hmessaged : (((s.logs w.id).messages ++ [(v.1, v.2.tg_user_id)]) ++ addresses pending).Perm
      (addresses (w.body.targets (s.logs w.id).loaded)) := by
    rw [List.append_assoc]
    exact ((hnext.map _).append_left _).trans hgoing.messaged
  have hmessages : ∀ d : Dm, BroadcastLog.messages { s.logs w.id with messaged := (s.logs w.id).messaged ++ [d] } =
      (s.logs w.id).messages ++ [(d.user_id, d.tg_user_id)] := fun d => List.map_append
  constructor
  · refine hI.record (.refl .refl s.notifications) fun row hrow => ?_
    obtain ⟨hunsent, hcreate⟩ := hgoing.unsent hrow
    have hok := hI w.id row hrow
    refine ⟨{ hok.noted with messaged := ?_, texts := ?_ }, hok.counted, fun hsent => absurd hsent hunsent⟩
    · rw [hmessages, hcreate]
      exact (List.sublist_append_left ..).subperm.trans hmessaged.subperm
    · intro d hd
      rcases List.mem_append.1 hd with hd | hd
      · exact hok.noted.texts d hd
      · rw [List.mem_singleton.1 hd, hcreate]
  · have hcounted := hgoing.counted
    have hfailed := hgoing.failed
    rw [← hnext.length_eq, List.length_cons] at hcounted
    refine ⟨?_, ?_, ?_, ?_, ?_, ?_, ?_⟩ <;> rw [hid]
    · rw [hbody]
      exact hgoing.row
    · rw [htodo, Sending.message, record_logs]
      exact hgoing.audience
    · rw [Sending.message, record_logs]
      exact hgoing.there
    · rw [Sending.message, record_logs]
      dsimp only
      unfold Sending.counted
      split <;> dsimp only <;> omega
    · -- a message refused is counted by the request and noted as refused at once
      rw [Sending.message, record_logs]
      unfold BroadcastLog.rejected at hfailed ⊢
      rw [List.countP_append, ← hfailed, List.countP_singleton]
      unfold Sending.counted
      cases s.reachable v.2.tg_user_id <;> rfl
    · rw [hbody, Sending.message, record_logs]
      exact hgoing.noticed
    · rw [hbody, Sending.message, record_logs, hmessages]
      exact hmessaged
  · rfl
  · intro b row hrow hb
    exact .record fun h => hb (congrArg some h.symm)
  · intro b hb
    exact .inl (by rw [← hb]; exact congrArg some hid.symm)

/-- The counters after a chunk. -/
theorem progress_goes (hI : s.Ok stay) (hgoing : w.Going stay s [] [] []) :
    Goes stay s (.progress w) w.next (w.progress s) := by
  obtain ⟨row, hrow, hstatus, hcreate⟩ := hgoing.row
  constructor
  · refine hI.save fun row' hrow' => ?_
    have hok := hI w.id row' hrow'
    exact ⟨hok.noted, hgoing.counted.le, by rintro ⟨⟩⟩
  · refine next_sound ⟨⟨_, save_row hrow, rfl, hcreate⟩, hgoing.audience, hgoing.there, hgoing.counted, hgoing.failed,
      hgoing.noticed, hgoing.messaged⟩
  · rfl
  · intro b row hrow hb
    exact .save fun h => hb (congrArg some h.symm)
  · intro b hb
    rw [next_broadcast] at hb
    exact .inl hb

/-- The end: every counter is that of what has been done. -/
theorem finish_goes (hI : s.Ok stay) (hdone : w.todo = []) (hgoing : w.Going stay s [] [] []) :
    Goes stay s (.finish w) .sent (w.finish s) := by
  have hcounted := hgoing.counted
  have hmessaged := hgoing.messaged
  have hnoticed := hgoing.noticed
  obtain ⟨seen, haudience, -, hstayed⟩ := hgoing.audience
  rw [hdone, List.append_nil, List.append_nil] at haudience
  rw [List.length_nil, Nat.add_zero] at hcounted
  rw [addresses_nil, List.append_nil] at hmessaged
  rw [dmEnabled_nil, addresses_nil, List.append_nil] at hnoticed
  constructor
  · refine hI.save fun row hrow => ?_
    obtain ⟨-, hcreate⟩ := hgoing.unsent hrow
    refine ⟨(hI w.id row hrow).noted, hcounted.le, fun _ => ⟨hcounted, hgoing.failed, ?_, ?_, ?_⟩⟩
    · dsimp only
      rw [hcreate]
      exact hmessaged
    · dsimp only
      rw [hcreate]
      exact hnoticed
    · exact fun hstay => (hstayed hstay).trans haudience.symm
  · trivial
  · rfl
  · intro b row hrow hb
    exact .save fun h => hb (congrArg some h.symm)
  · rintro b ⟨⟩

/-- A read that keeps the broadcast the request is sending. -/
theorem Goes.read {pc' : BroadcastPc} (hI : s.Ok stay) (hsound : pc'.Sound stay s)
    (hbroadcast : pc'.broadcast = pc.broadcast) : Goes stay s pc pc' s :=
  ⟨hI, hsound, rfl, fun _ _ _ _ => .refl, fun _ hb => .inl (hbroadcast ▸ hb)⟩

/-- One statement. -/
theorem broadcast_goes {σ : BroadcastSys} {x y : Transactions.Session Empty BroadcastPc} {u : BroadcastStore}
    (hI : σ.store.Ok stay) (hL : x.pc.Sound stay σ.store) (hm : Moves (BroadcastPc.move encoded_bytes) σ i x y u) :
    Goes stay σ.store x.pc y.pc u := by
  cases hc : x.pc with
  | count actor body =>
    obtain ⟨rfl, rfl⟩ := hm.of_read (by rw [hc]; rfl)
    exact .read hI trivial rfl
  | snapshot actor body now total =>
    obtain ⟨rfl, rfl⟩ := hm.of_read (by rw [hc]; rfl)
    refine .read hI ⟨List.nodup_range.filter _, fun _ v hv => ?_⟩ rfl
    obtain ⟨r, hr, -⟩ := Table.mem_ids.1 hv
    rw [hr]
    rfl
  | begin actor body total ids =>
    rw [hc] at hL
    obtain ⟨rfl, rfl⟩ := hm.of_commit (by rw [hc]; rfl)
    exact begin_goes hI hL
  | chunk w =>
    rw [hc] at hL
    obtain ⟨rfl, rfl⟩ := hm.of_read (by rw [hc]; rfl)
    exact .read hI (chunk_sound hL) rfl
  | insert w users =>
    rw [hc] at hL
    obtain ⟨rfl, rfl⟩ := hm.of_commit (by rw [hc]; rfl)
    dsimp only
    cases hmisses : σ.store.misses w.body users with
    | true =>
      rw [if_pos rfl, Sending.insertChunk, if_pos hmisses]
      exact .read hI (crash_sound hL hmisses) rfl
    | false =>
      rw [if_neg Bool.false_ne_true]
      exact insert_goes hI hL hmisses
  | announce w todo targets =>
    rw [hc] at hL
    obtain ⟨rfl, rfl⟩ := hm.of_exchange (by rw [hc]; rfl)
    cases todo with
    | nil => exact .read hI hL rfl
    | cons v silent => exact notice_goes hI hL
  | message w todo =>
    rw [hc] at hL
    obtain ⟨rfl, rfl⟩ := hm.of_exchange (by rw [hc]; rfl)
    have hnext := List.rotate_perm todo σ.store.turn
    dsimp only
    cases hrotate : todo.rotate σ.store.turn with
    | nil =>
      cases List.rotate_eq_nil_iff.1 hrotate
      exact .read hI hL rfl
    | cons v pending =>
      rw [hrotate] at hnext
      exact message_goes hI hL hnext
  | progress w =>
    rw [hc] at hL
    obtain ⟨rfl, rfl⟩ := hm.of_commit (by rw [hc]; rfl)
    exact progress_goes hI hL
  | finish w =>
    rw [hc] at hL
    obtain ⟨rfl, rfl⟩ := hm.of_commit (by rw [hc]; rfl)
    exact finish_goes hI hL.1 hL.2
  | crashed w => exact (hm.of_done (by rw [hc]; rfl)).elim
  | sent => exact (hm.of_done (by rw [hc]; rfl)).elim

/-- A task that runs moves a message from those to come to those sent. -/
theorem runTask_same {before after : List NoticeTask} {x : NoticeTask} (h : (s.logs i).notices.tasks = before ++ x :: after) :
    (s.logs i).Same ((s.runTask i before after x).logs i) := by
  rw [BroadcastStore.runTask, record_logs]
  refine ⟨rfl, rfl, rfl, rfl, ?_⟩
  rw [List.perm_iff_count]
  intro a
  simp only [Notices.all, h, List.map_append, List.map_cons, List.map_nil, List.count_append, List.count_cons, List.count_nil]
  omega

theorem sameBroadcast_elsewhere (h : BroadcastsElsewhere stay s t) : SameBroadcast s t b := by
  cases h with
  | rows h => exact ⟨congrFun h.logs b ▸ .refl, h.broadcasts b⟩
  | @task i before after x h =>
    by_cases hb : b = i
    · subst hb
      exact ⟨runTask_same h, fun row hrow => ⟨row, hrow, .refl⟩⟩
    · exact .record hb

theorem users_elsewhere (h : BroadcastsElsewhere stay s t) :
    stay → ∀ u, (s.users.row u).isSome → (t.users.row u).isSome := by
  cases h with
  | rows h => exact h.users
  | task h => exact fun _ _ hu => hu

/-- The row of a broadcast stays right when a task runs. -/
theorem BroadcastRow.Ok.ran {log' : BroadcastLog} (h : row.Ok stay s log) (hsame : log.Same log')
    (hmessages : log'.notices.Says row.create.noticeText) : row.Ok stay s log' := by
  obtain ⟨haudience, hloaded, hnotified, hmessaged, hnotices⟩ := hsame
  obtain ⟨hnoted, hcounted, hsent⟩ := h
  refine ⟨⟨?_, ?_, ?_, ?_, ?_, ?_, hmessages, ?_, ?_⟩, ?_, ?_⟩
  · rw [haudience]
    exact hnoted.audience
  · rw [hloaded, haudience]
    exact hnoted.loaded
  · rw [hnotified, hloaded]
    exact hnoted.notified
  · rw [hnotified]
    exact hnoted.keys
  · rw [hnotified]
    exact hnoted.rows
  · rw [hloaded]
    exact hnotices.subperm.trans hnoted.noticed
  · rw [BroadcastLog.messages, hmessaged, hloaded]
    exact hnoted.messaged
  · rw [hmessaged]
    exact hnoted.texts
  · rw [hloaded]
    exact hcounted
  · rw [BroadcastLog.rejected, BroadcastLog.messages, hmessaged, hloaded, haudience]
    intro hstatus
    obtain ⟨hsum, hfailed, hall, hnoticed, hstayed⟩ := hsent hstatus
    exact ⟨hsum, hfailed, hall, hnotices.trans hnoticed, hstayed⟩

theorem BroadcastStore.Ok.elsewhere (hI : s.Ok stay) (h : BroadcastsElsewhere stay s t) : t.Ok stay := by
  cases h with
  | rows h =>
    intro b row' hrow'
    rw [h.logs]
    cases hrow : s.broadcasts.row b with
    | none =>
      rw [h.absent b hrow] at hrow'
      cases hrow'
    | some row =>
      obtain ⟨row'', hrow'', hsame⟩ := h.broadcasts b row hrow
      cases hrow'.symm.trans hrow''
      exact (hI b row hrow).mono h.notifications hsame
  | @task i before after x h =>
    refine hI.record (.refl .refl s.notifications) fun row hrow => ?_
    have hok := hI i row hrow
    have hsame := runTask_same h
    rw [BroadcastStore.runTask, record_logs] at hsame
    refine hok.ran hsame ⟨fun d hd => ?_, fun y hy => hok.noted.notices.2 y ?_⟩
    · rcases List.mem_append.1 hd with hd | hd
      · exact hok.noted.notices.1 d hd
      · rw [List.mem_singleton.1 hd]
        exact hok.noted.notices.2 x (h ▸ List.mem_append_right _ List.mem_cons_self)
    · rw [h]
      exact (List.append_sublist_append_left before).2 (List.sublist_cons_self x after) |>.subset hy

/-- A broadcast that a request is sending has its row. -/
theorem BroadcastPc.Sound.exists (h : pc.Sound stay s) (hb : pc.broadcast = some b) :
    ∃ row, s.broadcasts.row b = some row := by
  cases pc with
  | chunk w | progress w | announce w todo targets | message w todo =>
    cases hb
    obtain ⟨row, hrow, -⟩ := Sending.Going.row h
    exact ⟨row, hrow⟩
  | finish w =>
    cases hb
    obtain ⟨row, hrow, -⟩ := h.2.row
    exact ⟨row, hrow⟩
  | insert w users =>
    cases hb
    obtain ⟨chunk, hgoing, -⟩ := h
    obtain ⟨row, hrow, -⟩ := hgoing.row
    exact ⟨row, hrow⟩
  | crashed w =>
    cases hb
    obtain ⟨-, row, hrow, -⟩ := h
    exact ⟨row, hrow⟩
  | _ => cases hb

/-- Of loaded users nobody is met twice. -/
theorem BroadcastLog.Ok.distinct {n : Table Notification} {body : BroadcastCreate} (h : log.Ok n body)
    {who : List (ℕ × ℤ)} (husers : users.Sublist log.loaded) (hwho : who.Subperm (addresses users)) :
    (who.map Prod.fst).Nodup := by
  have hsub : ((addresses users).map Prod.fst).Sublist (log.loaded.map Prod.fst) := by
    rw [addresses, List.map_map]
    exact husers.map Prod.fst
  obtain ⟨who', hperm, hwho'⟩ := hwho
  exact (hperm.map Prod.fst).nodup_iff.1 (h.audience.sublist ((hwho'.map Prod.fst).trans (hsub.trans h.loaded)))

/-- Nobody gets the broadcast's message twice. -/
theorem BroadcastLog.Ok.messaged_nodup {n : Table Notification} {body : BroadcastCreate} (h : log.Ok n body) :
    (log.messaged.map Dm.user_id).Nodup := by
  have hfst : (log.messaged.map Dm.user_id) = log.messages.map Prod.fst := by
    rw [BroadcastLog.messages, List.map_map]
    rfl
  rw [hfst]
  exact h.distinct targets_sublist h.messaged

/-- Nobody gets the message about the notification twice. -/
theorem BroadcastLog.Ok.noticed_nodup {n : Table Notification} {body : BroadcastCreate} (h : log.Ok n body) :
    (log.notices.all.map Prod.fst).Nodup :=
  h.distinct (List.filter_sublist.trans inapp_sublist) h.noticed

theorem BroadcastLog.Ok.notified_nodup {n : Table Notification} {body : BroadcastCreate} (h : log.Ok n body) :
    (log.notified.map Prod.fst).Nodup := by
  rw [h.notified]
  split
  · exact h.audience.sublist h.loaded
  · exact List.nodup_nil

/-- No broadcast has been sent yet. -/
def BroadcastStore.start (users : Table Recipient) (notifications : Table Notification) (reachable : ℤ → Bool)
    (now : Datetime.Naive) : BroadcastStore :=
  ⟨users, notifications, .empty, true, reachable, 0, now, fun _ => .empty⟩

/-- In every run each broadcast's row says what has been done: the recipients
are users of its audience; each has one notification, if the broadcast notifies,
one message about it at most, if they want these, and one message of the broadcast
at most, and nobody else has; once it is sent, everybody with a Telegram id has
been messaged, if it messages, the task of every other message has been started,
unless the event was not published, and the counters add up. With nobody deleted
meanwhile, the recipients are the whole audience and no request fails; one that
fails leaves the broadcast as `sending`. -/
theorem broadcast_exact {notifications : Table Notification} {recipients : Table Recipient} {reachable : ℤ → Bool}
    {now : Datetime.Naive} {τ : BroadcastSys} (h : Reach (BroadcastStep encoded_bytes stay) Free
      (.idle (.start recipients notifications reachable now)) τ) :
    (∀ b row, τ.store.broadcasts.row b = some row → row.Ok stay τ.store (τ.store.logs b) ∧
      ((τ.store.logs b).notified.map Prod.fst).Nodup ∧ ((τ.store.logs b).notices.all.map Prod.fst).Nodup ∧
      ((τ.store.logs b).messaged.map Dm.user_id).Nodup) ∧
    (∀ i w held, τ.sessions.row i = some ⟨.crashed w, held⟩ →
      ¬stay ∧ ∃ row, τ.store.broadcasts.row w.id = some row ∧ row.status = .sending) := by
  have hstart : (BroadcastStore.start recipients notifications reachable now).Ok stay := fun b row hrow => by cases hrow
  have hinv := outline_pairs (I := BroadcastStore.Ok stay) (L := fun s x => x.pc.Sound stay s)
    (M := fun _ x y => ∀ b, x.pc.broadcast = some b → y.pc.broadcast ≠ some b) h hstart ?_ ?_ ?_ ?_
  · refine ⟨fun b row hrow => ?_, fun i w held hi => hinv.2.1 i _ hi⟩
    have hok := hinv.1 b row hrow
    exact ⟨hok, hok.noted.notified_nodup, hok.noted.noticed_nodup, hok.noted.messaged_nodup⟩
  · exact fun _ x y hxy b hy hx => hxy b hx hy
  · exact fun op u _ => ⟨trivial, fun z _ b hb => by cases hb⟩
  · intro σ i x y u hI hL hothers _ hx hm
    have hgoes := broadcast_goes hI hL hm
    refine ⟨hgoes.ok, hgoes.sound, fun j z hj hz => ?_, fun _ _ _ _ hzw => hzw⟩
    obtain ⟨hz, hxz⟩ := hothers j z hj hz
    constructor
    · refine hz.mono (fun b hb => ?_) fun _ v hv => hgoes.users ▸ hv
      obtain ⟨row, hrow⟩ := hz.exists hb
      exact hgoes.others b row hrow fun hxb => hxz b hxb hb
    · intro b hyb hzb
      -- a broadcast that has just begun has a new row, and `z` sends one that has its row
      rcases hgoes.broadcast b hyb with hxb | hnone
      · exact hxz b hxb hzb
      · obtain ⟨row, hrow⟩ := hz.exists hzb
        cases hnone.symm.trans hrow
  · intro s u hI hother
    exact ⟨hI.elsewhere hother, fun z hz => hz.mono (fun b _ => sameBroadcast_elsewhere hother) (users_elsewhere hother),
      fun _ _ hzw => hzw⟩

end

/-! ## A broadcast to two users -/

def sampleRecipient (tg_user_id : ℤ) (dm_system : Bool) : Recipient :=
  ⟨tg_user_id, false, false, false, none, 0, 0, none, dm_system⟩

def sampleRecipients : Table Recipient := (Table.empty.insert (sampleRecipient 10 true)).insert (sampleRecipient 20 false)

def sampleBroadcast : BroadcastCreate := ⟨"News", "Hello", none, none, none, none, none, none, none, true, true⟩

/-- Where the broadcast is with so many delivered and failed. -/
def sampleSending (todo : List ℕ) (delivered failed : ℕ) : Sending := ⟨1, sampleBroadcast, 2, todo, delivered, failed⟩

def sampleLoaded : List (ℕ × Recipient) := [(1, sampleRecipient 10 true), (2, sampleRecipient 20 false)]

/-- The second user has blocked the bot and wants no messages about notifications. -/
theorem sampleBroadcast_exact : ∃ t, Reach (BroadcastStep (fun _ => 0) True) Free
    (.idle (.start sampleRecipients .empty (fun tg => tg = 10) sampleNoon)) t ∧
    t.store.broadcasts.row 1 = some ⟨7, sampleBroadcast, .sent, 2, 1, 1, some sampleNoon, none⟩ ∧
    (t.store.logs 1).notices.sent = [⟨1, 10, "<b>News</b>\nHello", true⟩] ∧
    (t.store.logs 1).messaged = [⟨1, 10, "<b>News</b>\n\nHello", true⟩, ⟨2, 20, "<b>News</b>\n\nHello", false⟩] ∧
    ((t.store.logs 1).notices.all.map Prod.fst).Nodup ∧ ∀ i w held, t.sessions.row i ≠ some ⟨.crashed w, held⟩ := by
  have h₀ : Reach (BroadcastStep (fun _ => 0) True) Free
      (.idle (.start sampleRecipients .empty (fun tg => tg = 10) sampleNoon))
      (.idle (.start sampleRecipients .empty (fun tg => tg = 10) sampleNoon)) := .refl
  have h₁ := run_start h₀ ⟨7, sampleBroadcast⟩ trivial
  have h₂ := run_read (p := .snapshot 7 sampleBroadcast sampleNoon 2) h₁ 1 rfl rfl rfl trivial
  have h₃ := run_read (p := .begin 7 sampleBroadcast 2 [1, 2]) h₂ 1 rfl rfl rfl trivial
  have h₄ := run_commit (p := .chunk (sampleSending [1, 2] 0 0)) h₃ 1 rfl rfl rfl trivial
  have h₅ := run_read (p := .insert (sampleSending [] 0 0) sampleLoaded) h₄ 1 rfl rfl rfl trivial
  have h₆ := run_commit (p := .announce (sampleSending [] 0 0) sampleLoaded sampleLoaded) h₅ 1 rfl rfl rfl trivial
  have h₇ := run_exchange (p := .announce (sampleSending [] 0 0) [(2, sampleRecipient 20 false)] sampleLoaded)
    h₆ 1 rfl rfl rfl trivial
  have h₈ := run_exchange (p := .announce (sampleSending [] 0 0) [] sampleLoaded) h₇ 1 rfl rfl rfl trivial
  have h₉ := run_exchange (p := .message (sampleSending [] 0 0) sampleLoaded) h₈ 1 rfl rfl rfl trivial
  have h₁₀ := run_exchange (p := .message (sampleSending [] 1 0) [(2, sampleRecipient 20 false)]) h₉ 1 rfl rfl rfl trivial
  -- the task runs between the messages
  have h₁₁ := h₁₀.step trivial (.other (@BroadcastsElsewhere.task True _ 1 [] [] _ rfl))
  have h₁₂ := run_exchange (p := .message (sampleSending [] 1 1) []) h₁₁ 1 rfl rfl rfl trivial
  have h₁₃ := run_exchange (p := .progress (sampleSending [] 1 1)) h₁₂ 1 rfl rfl rfl trivial
  have h₁₄ := run_commit (p := .finish (sampleSending [] 1 1)) h₁₃ 1 rfl rfl rfl trivial
  have h₁₅ := run_commit (p := .sent) h₁₄ 1 rfl rfl rfl trivial
  obtain ⟨hrows, hcrashed⟩ := broadcast_exact h₁₅
  exact ⟨_, h₁₅, rfl, rfl, rfl, (hrows 1 _ rfl).2.2.1, fun i w held hi => (hcrashed i w held hi).1 trivial⟩

end Garant
