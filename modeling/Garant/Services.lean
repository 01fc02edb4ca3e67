import Garant.Accounts
import Garant.Invoices
/-!
# Services, their quota and their bans

The requests that write the rows of `services`, statement by statement: the
owner's `create_service`, `update_service` and `delete_service`, and the admin's
`admin_moderate` and content `update_service`. An owner's update decides on the
status the row was loaded with, and only the start of an active service counts
under the owner's lock.

`quota_holds`: the number of active services stays within a configured maximum
of at least one. `ban_sticks`: a ban stays as the admins left it in every run in
which no service is banned between the load and the commit of an owner's update
that asks for a status.
-/
open Transactions

namespace Garant

inductive ServiceStatus
  | draft
  | active
  | paused
  | banned
deriving DecidableEq

/-- `ServiceStatus(value)`. -/
def ServiceStatus.ofString (s : String) : Option ServiceStatus :=
  if s = "draft" then some .draft
  else if s = "active" then some .active
  else if s = "paused" then some .paused
  else if s = "banned" then some .banned
  else none

structure Service where
  owner_id : ℕ
  category_id : ℕ
  title : String
  description : String
  price : ℚ
  status : ServiceStatus
  ban_reason : Option String
  photo_urls : List String
  deposit : ℚ
  views : ℤ
  deals_count : ℤ
  rating_manual : Option ℚ
deriving DecidableEq

/-- What the requests share. `max_active` is the row of `app_settings`, if there
is one, with `max_active_services_per_user`; `bans` is not in the program: the
ban reason of a service as an admin last left it banned. -/
structure ServiceStore where
  max_active : Option (Option ℤ)
  categories : String → Option ℕ
  services : Table Service
  bans : ℕ → Option (Option String)

/-- A row that a statement locks. -/
inductive ServiceLock
  | user (id : ℕ)
  | service (id : ℕ)
deriving DecidableEq

/-- Who calls, as loaded. -/
structure Caller where
  id : ℕ
  is_admin : Bool
deriving DecidableEq

/-- `ServiceCreate`. -/
structure ServiceCreate where
  category_slug : String
  title : String
  description : String
  price : ℚ
  photo_urls : List String
deriving DecidableEq

/-- `ServiceUpdate`. -/
structure ServiceUpdate where
  title : Option String
  description : Option String
  price : Option ℚ
  status : Option String
  photo_urls : Option (List String)
deriving DecidableEq

/-- `AdminServiceUpdateIn`. -/
structure AdminServiceUpdate where
  title : Option String
  description : Option String
  price : Option ℚ
  deposit : Option ℚ
  views : Option ℤ
  deals_count : Option ℤ
  rating_manual : Option ℚ
  clear_rating : Bool
  status : Option ServiceStatus
  ban_reason : Option String
deriving DecidableEq

/-! ## What the requests decide -/

/-- `_quota_snapshot`: the active services, and the maximum. A configured zero counts as none configured. -/
def ServiceStore.activeCount (s : ServiceStore) (owner_id : ℕ) : ℕ :=
  s.services.count fun x => x.owner_id = owner_id && x.status = .active

def ServiceStore.maxActive (s : ServiceStore) : ℤ :=
  match s.max_active with
  | none => 10
  | some value => if value.getD 10 = 0 then 10 else value.getD 10

def checkTitle (title : String) : Result String := do
  let title := strip title
  raiseIf (title = "") (.http 400 "Введите название услуги")
  raiseIf (256 < title.length) (.http 400 "Название слишком длинное (≤256)")
  pure title

/-- `create_service` up to its lock: the row it is going to insert. -/
def newService (s : ServiceStore) (user : Caller) (body : ServiceCreate) : Result Service := do
  let title ← checkTitle body.title
  raiseIf (body.price < 0) (.http 400 "Цена не может быть отрицательной")
  let category_id ← orRaise (s.categories body.category_slug) (.http 404 "Категория не найдена")
  pure ⟨user.id, category_id, title, body.description, body.price, .active, none, body.photo_urls, 0, 0, 0, none⟩

/-- `update_service` up to the status: who may, and the plain fields. -/
def editFields (user : Caller) (body : ServiceUpdate) (seen : Service) : Result Service := do
  raiseIf (seen.owner_id ≠ user.id ∧ user.is_admin = false) (.http 403 "Нет доступа")
  raiseIf (seen.status = .banned ∧ user.is_admin = false) (.http 403 "Услуга заблокирована администрацией")
  let title ← body.title.elim (pure seen.title) checkTitle
  raiseIf (body.price.any (· < 0) = true) (.http 400 "Цена не может быть отрицательной")
  pure { seen with
    title
    description := body.description.getD seen.description
    price := body.price.getD seen.price }

/-- The status it asks for; a ban has its own endpoint. -/
def wantedStatus (body : ServiceUpdate) : Result (Option ServiceStatus) :=
  match body.status with
  | none => pure none
  | some text => do
    let wanted ← orRaise (ServiceStatus.ofString text) (.http 400 "Неизвестный статус услуги")
    raiseIf (wanted = .banned) (.http 400 "Бан услуги — через админ-эндпойнт /api/admin/content/services/{id}")
    pure (some wanted)

/-- The row as the commit is to leave it. -/
def withStatus (wanted : Option ServiceStatus) (photo_urls : Option (List String)) (s : Service) : Service :=
  { s with
    status := wanted.getD s.status
    ban_reason := if wanted.isSome then none else s.ban_reason
    photo_urls := photo_urls.getD s.photo_urls }

/-- Whether the active services are counted first. -/
def needsQuota (user : Caller) (wanted : Option ServiceStatus) (seen : Service) : Bool :=
  wanted = some .active && seen.status ≠ .active && !user.is_admin

/-- `admin_moderate`. -/
def moderate (action reason : String) (seen : Service) : Result Service :=
  if action = "ban" then
    pure { seen with status := .banned, ban_reason := some (if reason = "" then "Нарушение правил" else reason) }
  else if action = "unban" then pure { seen with status := .active, ban_reason := none }
  else throw (.http 400 "Неизвестное действие")

/-- The content `update_service` of an admin. -/
def adminEdit (body : AdminServiceUpdate) (seen : Service) : Service :=
  { seen with
    title := body.title.getD seen.title
    description := body.description.getD seen.description
    price := body.price.getD seen.price
    deposit := body.deposit.getD seen.deposit
    views := body.views.getD seen.views
    deals_count := body.deals_count.getD seen.deals_count
    rating_manual := if body.clear_rating then none else body.rating_manual.or seen.rating_manual
    status := body.status.getD seen.status
    ban_reason := body.ban_reason.or seen.ban_reason }

/-! ## Writing a row back -/

/-- The `UPDATE` of a row loaded as `seen` that is now `new`, over the committed `cur`. -/
def flushService (seen new cur : Service) : Service where
  owner_id := column seen.owner_id new.owner_id cur.owner_id
  category_id := column seen.category_id new.category_id cur.category_id
  title := column seen.title new.title cur.title
  description := column seen.description new.description cur.description
  price := column seen.price new.price cur.price
  status := column seen.status new.status cur.status
  ban_reason := column seen.ban_reason new.ban_reason cur.ban_reason
  photo_urls := column seen.photo_urls new.photo_urls cur.photo_urls
  deposit := column seen.deposit new.deposit cur.deposit
  views := column seen.views new.views cur.views
  deals_count := column seen.deals_count new.deals_count cur.deals_count
  rating_manual := column seen.rating_manual new.rating_manual cur.rating_manual

/-- A row loaded and changed: whether an admin changed it, and the status asked for. -/
structure ServiceWrite where
  service_id : ℕ
  by_admin : Bool
  wanted : Option ServiceStatus
  seen : Service
  new : Service
deriving DecidableEq

/-- What the admins leave of a service: its ban, if it is banned. -/
def Service.ban (x : Service) : Option (Option String) := if x.status = .banned then some x.ban_reason else none

/-- The commit of the `UPDATE`; if the row is gone the flush raises and nothing is written. -/
def ServiceWrite.commit (w : ServiceWrite) (s : ServiceStore) : ServiceStore :=
  match s.services.row w.service_id with
  | none => s
  | some cur =>
    let row := flushService w.seen w.new cur
    { s with
      services := s.services.set w.service_id row
      bans := if w.by_admin then Function.update s.bans w.service_id row.ban else s.bans }

/-- How the `UPDATE` ends. -/
def ServiceWrite.answer (w : ServiceWrite) (s : ServiceStore) : Result Unit :=
  if s.services.row w.service_id = none then .error .stale_data else .ok ()

/-! ## The requests -/

inductive ServiceOp
  | create (user : Caller) (body : ServiceCreate)
  | update (user : Caller) (service_id : ℕ) (body : ServiceUpdate)
  | delete (user : Caller) (service_id : ℕ)
  | moderate (service_id : ℕ) (action reason : String)
  | adminUpdate (service_id : ℕ) (body : AdminServiceUpdate)

/-- Where a request is. -/
inductive ServicePc
  | create (user : Caller) (body : ServiceCreate)
  | createLock (row : Service)
  | createCount (row : Service)
  | createCommit (row : Service)
  | update (user : Caller) (service_id : ℕ) (body : ServiceUpdate)
  | activateFlush (w : ServiceWrite)
  | activateLock (w : ServiceWrite)
  | activateCount (w : ServiceWrite)
  | lockRow (w : ServiceWrite)
  | commit (w : ServiceWrite)
  | delete (user : Caller) (service_id : ℕ)
  | eraseLock (service_id : ℕ)
  | erase (service_id : ℕ)
  | moderate (service_id : ℕ) (action reason : String)
  | adminUpdate (service_id : ℕ) (body : AdminServiceUpdate)
  | answered (r : Result Unit)
deriving DecidableEq

def ServiceOp.entry : ServiceOp → ServicePc
  | .create user body => .create user body
  | .update user k body => .update user k body
  | .delete user k => .delete user k
  | .moderate k action reason => .moderate k action reason
  | .adminUpdate k body => .adminUpdate k body

/-- On to the `UPDATE`, if there is anything to write. -/
def ServiceWrite.go (w : ServiceWrite) : ServicePc := if w.new = w.seen then .commit w else .lockRow w

/-- `update_service` on the loaded row: the write it is going to make, and how it gets there.
A counted start of a service first flushes the plain fields, which locks the row. -/
def updateFrom (user : Caller) (service_id : ℕ) (body : ServiceUpdate) (seen : Service) : ServicePc :=
  match (do let edited ← editFields user body seen; let wanted ← wantedStatus body; pure (edited, wanted)) with
  | .error e => .answered (.error e)
  | .ok (edited, wanted) =>
    let w : ServiceWrite := ⟨service_id, user.is_admin, wanted, seen, withStatus wanted body.photo_urls edited⟩
    if needsQuota user wanted seen then if edited = seen then .activateLock w else .activateFlush w
    else w.go

def ServicePc.move : ServicePc → Move ServiceStore ServiceLock ServicePc
  | .create user body => .read fun s => match newService s user body with
    | .error e => .answered (.error e)
    | .ok row => .createLock row
  | .createLock row => .lock (.user row.owner_id) (.createCount row)
  | .createCount row => .read fun s =>
    if s.maxActive ≤ s.activeCount row.owner_id then
      .answered (.error (.http 400
        s!"Достигнут лимит активных услуг ({s.maxActive}). Поставьте часть на паузу или удалите."))
    else .createCommit row
  | .createCommit row => .commit (fun s => { s with services := s.services.insert row }) fun _ => .answered (.ok ())
  | .update user k body => .read fun s => match s.services.row k with
    | none => .answered (.error (.http 404 "Услуга не найдена"))
    | some seen => updateFrom user k body seen
  | .activateFlush w => .lock (.service w.service_id) (.activateLock w)
  | .activateLock w => .lock (.user w.seen.owner_id) (.activateCount w)
  | .activateCount w => .read fun s =>
    if s.maxActive ≤ s.activeCount w.seen.owner_id then
      .answered (.error (.http 400 s!"Достигнут лимит активных услуг ({s.maxActive})."))
    else w.go
  | .lockRow w => .lock (.service w.service_id) (.commit w)
  | .commit w => .commit w.commit fun s => .answered (w.answer s)
  | .delete user k => .read fun s => match s.services.row k with
    | none => .answered (.error (.http 404 "Услуга не найдена"))
    | some seen =>
      if seen.owner_id ≠ user.id ∧ user.is_admin = false then .answered (.error (.http 403 "Нет доступа"))
      else .eraseLock k
  | .eraseLock k => .lock (.service k) (.erase k)
  | .erase k => .commit (fun s => { s with services := s.services.erase k }) fun _ => .answered (.ok ())
  | .moderate k action reason => .read fun s => match s.services.row k with
    | none => .answered (.error (.http 404 "Услуга не найдена"))
    | some seen => match Garant.moderate action reason seen with
      | .error e => .answered (.error e)
      | .ok new => ServiceWrite.go ⟨k, true, some new.status, seen, new⟩
  | .adminUpdate k body => .read fun s => match s.services.row k with
    | none => .answered (.error (.http 404 "Услуга не найдена"))
    | some seen => ServiceWrite.go ⟨k, true, body.status, seen, adminEdit body seen⟩
  | .answered _ => .done

/-- Nothing else writes services here. -/
def ServiceStep : Event ServiceOp → Transactions.Sys ServiceStore ServiceLock ServicePc →
    Transactions.Sys ServiceStore ServiceLock ServicePc → Prop :=
  Transactions.Step ServicePc.move ServiceOp.entry fun _ _ => False

abbrev ServiceSys := Transactions.Sys ServiceStore ServiceLock ServicePc

/-! ## What a commit changes -/

variable {s t : ServiceStore} {w : ServiceWrite} {row seen new cur x : Service} {user : Caller} {k u v i : ℕ} {n : ℕ}
  {held : List ServiceLock} {pc : ServicePc}

@[simp] theorem flushService_unchanged : flushService seen seen cur = cur := by simp only [flushService, column_unchanged]

theorem ServiceWrite.commit_row (h : (w.commit s).services.row k = some x) :
    ∃ cur, s.services.row k = some cur ∧ x = if k = w.service_id then flushService w.seen w.new cur else cur := by
  unfold ServiceWrite.commit at h
  split at h
  · rename_i hnone
    refine ⟨x, h, ?_⟩
    rw [if_neg]
    rintro rfl
    rw [hnone] at h
    cases h
  · rename_i cur hcur
    rw [Table.set_row hcur] at h
    split at h
    · rename_i hk
      subst hk
      cases h
      exact ⟨cur, hcur, by rw [if_pos rfl]⟩
    · rename_i hk
      exact ⟨x, h, by rw [if_neg hk]⟩

@[simp] theorem ServiceWrite.commit_next : (w.commit s).services.next = s.services.next := by
  unfold ServiceWrite.commit
  split <;> rfl

@[simp] theorem ServiceWrite.commit_max : (w.commit s).max_active = s.max_active := by
  unfold ServiceWrite.commit
  split <;> rfl

/-- A counted service. -/
def Service.counts (x : Service) (owner_id : ℕ) : Bool := x.owner_id = owner_id && x.status = .active

theorem ServiceStore.activeCount_eq : s.activeCount u = s.services.count fun x => x.counts u := rfl

/-! ## The quota -/

/-- The row keeps the owner it was loaded with. -/
structure ServiceWrite.Owned (w : ServiceWrite) (s : ServiceStore) : Prop where
  same : w.new.owner_id = w.seen.owner_id
  old : w.service_id < s.services.next
  row : ∀ r, s.services.row w.service_id = some r → r.owner_id = w.seen.owner_id

/-- One more active service of the owner still fits, if the owner is `u`, and nobody else can add one. -/
def Room (n u : ℕ) (s : ServiceStore) (held : List ServiceLock) (owner_id : ℕ) : Prop :=
  .user owner_id ∈ held ∧ (owner_id = u → s.activeCount u < n)

/-- What a request of an owner relies on. -/
def ServicePc.Counted (n u : ℕ) (s : ServiceStore) (held : List ServiceLock) : ServicePc → Prop
  | .update user _ _ => user.is_admin = false
  | .createCount row => .user row.owner_id ∈ held
  | .createCommit row => Room n u s held row.owner_id
  | .activateFlush w | .activateLock w => w.Owned s
  | .activateCount w => w.Owned s ∧ .user w.seen.owner_id ∈ held
  | .lockRow w | .commit w =>
    w.Owned s ∧ (w.new.status = .active → w.seen.status ≠ .active → Room n u s held w.seen.owner_id)
  | .moderate .. | .adminUpdate .. => False
  | _ => True

/-- What one statement of an owner's request does to the rest: a counted service more takes the lock of its owner. -/
structure Counts (n u : ℕ) (held : List ServiceLock) (s t : ServiceStore) : Prop where
  config : t.max_active = s.max_active
  next : s.services.next ≤ t.services.next
  owners : ∀ k r, k < s.services.next → t.services.row k = some r →
    ∃ r₀, s.services.row k = some r₀ ∧ r₀.owner_id = r.owner_id
  count : ∀ v, t.activeCount v ≤ s.activeCount v ∨ (Room n u s held v ∧ t.activeCount v ≤ s.activeCount v + 1)

theorem Counts.refl : Counts n u held s s := ⟨rfl, le_rfl, fun _ r _ h => ⟨r, h, rfl⟩, fun _ => .inl le_rfl⟩

theorem counts_insert (h : Room n u s held row.owner_id) :
    Counts n u held s { s with services := s.services.insert row } where
  config := rfl
  next := Nat.le_succ _
  owners j r hj hr := by
    rw [Table.insert_row, if_neg hj.ne] at hr
    exact ⟨r, hr, rfl⟩
  count v := by
    rw [ServiceStore.activeCount_eq, ServiceStore.activeCount_eq, Table.count_insert]
    by_cases hv : row.counts v = true
    · refine .inr ⟨?_, by rw [if_pos hv]⟩
      have hown : row.owner_id = v := by
        simp only [Service.counts, Bool.and_eq_true, decide_eq_true_eq] at hv
        exact hv.1
      exact hown ▸ h
    · exact .inl (by rw [if_neg hv]; exact le_rfl)

theorem counts_erase : Counts n u held s { s with services := s.services.erase k } where
  config := rfl
  next := le_rfl
  owners j r _ hr := by
    rw [Table.erase_row] at hr
    split at hr
    · cases hr
    · exact ⟨r, hr, rfl⟩
  count v := by
    refine .inl (Table.count_le fun j hj => ?_)
    rw [Table.erase_row] at hj
    split at hj
    · cases hj
    · exact hj

/-- The `UPDATE` makes a row counted only when it starts it. -/
theorem flush_counts (howner : new.owner_id = seen.owner_id)
    (h : (flushService seen new cur).counts v = true) (hcur : cur.counts v = false) :
    new.status = .active ∧ seen.status ≠ .active ∧ cur.owner_id = v := by
  simp only [Service.counts, flushService, howner, column_unchanged, Bool.and_eq_true, decide_eq_true_eq] at h
  obtain ⟨hown, hstatus⟩ := h
  have hnot : cur.status ≠ .active := by
    intro hact
    simp [Service.counts, hown, hact] at hcur
  unfold column at hstatus
  split at hstatus
  · exact absurd hstatus hnot
  · rename_i hchanged
    exact ⟨hstatus, fun hseen => hchanged (hstatus.trans hseen.symm), hown⟩

theorem counts_commit (ho : w.Owned s)
    (h : w.new.status = .active → w.seen.status ≠ .active → Room n u s held w.seen.owner_id) :
    Counts n u held s (w.commit s) where
  config := ServiceWrite.commit_max
  next := ServiceWrite.commit_next.ge
  owners k r _ hr := by
    obtain ⟨cur, hcur, rfl⟩ := ServiceWrite.commit_row hr
    refine ⟨cur, hcur, ?_⟩
    split
    · simp [flushService, ho.same]
    · rfl
  count v := by
    by_cases hstarts : w.new.status = .active ∧ w.seen.status ≠ .active ∧ w.seen.owner_id = v
    · obtain ⟨hnew, hseen, rfl⟩ := hstarts
      refine .inr ⟨h hnew hseen, Table.count_le_succ (i := w.service_id) fun j hj hany => ?_⟩
      obtain ⟨r, hr, hp⟩ := (Option.any_eq_true _ _).1 hany
      obtain ⟨cur, hcur, rfl⟩ := ServiceWrite.commit_row hr
      rw [if_neg hj] at hp
      exact (Option.any_eq_true _ _).2 ⟨cur, hcur, hp⟩
    · refine .inl (Table.count_le fun j hany => ?_)
      obtain ⟨r, hr, hp⟩ := (Option.any_eq_true _ _).1 hany
      obtain ⟨cur, hcur, rfl⟩ := ServiceWrite.commit_row hr
      refine (Option.any_eq_true _ _).2 ⟨cur, hcur, ?_⟩
      split at hp
      · rename_i hj
        subst hj
        by_contra hcounts
        obtain ⟨hnew, hseen, hown⟩ := flush_counts ho.same hp (Bool.eq_false_iff.2 hcounts)
        exact hstarts ⟨hnew, hseen, (ho.row cur hcur).symm.trans hown⟩
      · exact hp

theorem editFields_ok {body : ServiceUpdate} {edited : Service} (h : editFields user body seen = .ok edited) :
    edited.owner_id = seen.owner_id ∧ edited.status = seen.status ∧ edited.ban_reason = seen.ban_reason ∧
      (user.is_admin = false → seen.status ≠ .banned) := by
  simp only [editFields, bind_ok, raiseIf_ok, pure_ok] at h
  obtain ⟨-, -, -, hbanned, title, -, -, -, rfl⟩ := h
  exact ⟨rfl, rfl, rfl, fun hadmin hseen => hbanned ⟨hseen, hadmin⟩⟩

/-- It asks for a status other than the loaded one, or finds a ban reason to clear. -/
def ServiceWrite.Restates (w : ServiceWrite) : Prop :=
  ∃ status, w.wanted = some status ∧ (status ≠ w.seen.status ∨ w.seen.ban_reason ≠ none)

/-- What `update_service` saw to before an owner's write. -/
structure ServiceWrite.Checked (w : ServiceWrite) : Prop where
  seen : w.by_admin = false → w.seen.status ≠ .banned
  kept : w.by_admin = false → ¬w.Restates → w.new.status = w.seen.status ∧ w.new.ban_reason = w.seen.ban_reason

theorem ServiceWrite.Checked.of_admin (h : w.by_admin = true) : w.Checked where
  seen hadmin := by
    rw [h] at hadmin
    cases hadmin
  kept hadmin := by
    rw [h] at hadmin
    cases hadmin

/-- What `update_service` does with the row it loaded: it stops, goes to count, or
writes what starts no service. -/
theorem updateFrom_cases (user : Caller) (k : ℕ) (body : ServiceUpdate) (seen : Service) :
    (∃ r, updateFrom user k body seen = .answered r) ∨
      ∃ w : ServiceWrite, w.service_id = k ∧ w.Checked ∧ w.seen = seen ∧ w.new.owner_id = seen.owner_id ∧
        (updateFrom user k body seen = .activateFlush w ∨ updateFrom user k body seen = .activateLock w ∨
          (updateFrom user k body seen = w.go ∧
            (user.is_admin = false → w.new.status = .active → seen.status ≠ .active → False))) := by
  unfold updateFrom
  split
  · rename_i e _
    exact .inl ⟨.error e, rfl⟩
  · rename_i edited wanted hok
    simp only [bind_ok, pure_ok, Prod.mk.injEq] at hok
    obtain ⟨edited', hedit, wanted', -, rfl, rfl⟩ := hok
    obtain ⟨howner, hstatus, hreason, hbanned⟩ := editFields_ok hedit
    have hchecked : ServiceWrite.Checked
        ⟨k, user.is_admin, wanted', seen, withStatus wanted' body.photo_urls edited'⟩ := by
      refine ⟨hbanned, fun hadmin hsame => ?_⟩
      cases wanted' with
      | none => exact ⟨hstatus, hreason⟩
      | some status =>
        have hstay : ¬(status ≠ seen.status ∨ seen.ban_reason ≠ none) := fun h => hsame ⟨status, rfl, h⟩
        rw [not_or, not_not, not_not] at hstay
        exact ⟨hstay.1, hstay.2.symm⟩
    refine .inr ⟨_, rfl, hchecked, rfl, howner, ?_⟩
    split
    · split
      · exact .inr (.inl rfl)
      · exact .inl rfl
    · rename_i hquota
      refine .inr (.inr ⟨rfl, fun hadmin hnew hseen => hquota ?_⟩)
      cases wanted' with
      | none => exact absurd (hstatus.symm.trans hnew) hseen
      | some status =>
        obtain rfl : status = .active := hnew
        simp [needsQuota, hseen, hadmin]

theorem go_counted {w : ServiceWrite} (ho : w.Owned s)
    (h : w.new.status = .active → w.seen.status ≠ .active → Room n u s held w.seen.owner_id) :
    w.go.Counted n u s held := by
  unfold ServiceWrite.go
  split
  · exact ⟨ho, h⟩
  · exact ⟨ho, h⟩

/-- A configured maximum of at least one is the maximum. -/
theorem maxActive_eq (hmax : s.max_active = some (some (n : ℤ))) (hn : 1 ≤ n) : s.maxActive = n := by
  simp only [ServiceStore.maxActive, hmax, Option.getD_some]
  rw [if_neg (by omega)]

/-- A statement of an owner's request keeps to the quota. -/
theorem counted_move {S : ServiceSys} {x y : Transactions.Session ServiceLock ServicePc} (h : Moves ServicePc.move S i x y t)
    (hx : x.pc.Counted n u S.store x.held) (hmax : S.store.max_active = some (some (n : ℤ))) (hn : 1 ≤ n) :
    Counts n u x.held S.store t ∧ y.pc.Counted n u t y.held := by
  obtain ⟨pc, held⟩ := x
  cases pc with
  | create user body =>
    obtain ⟨rfl, rfl⟩ := h.of_read rfl
    refine ⟨.refl, ?_⟩
    simp only
    split <;> trivial
  | createLock row =>
    obtain ⟨rfl, rfl⟩ := h.of_lock rfl
    exact ⟨.refl, List.mem_cons_self⟩
  | createCount row =>
    obtain ⟨rfl, rfl⟩ := h.of_read rfl
    refine ⟨.refl, ?_⟩
    simp only [maxActive_eq hmax hn]
    split
    · trivial
    · rename_i hroom
      refine ⟨hx, fun hu => ?_⟩
      rw [hu] at hroom
      exact_mod_cast not_le.1 hroom
  | createCommit row =>
    obtain ⟨rfl, rfl⟩ := h.of_commit rfl
    exact ⟨counts_insert hx, trivial⟩
  | update user k body =>
    obtain ⟨rfl, rfl⟩ := h.of_read rfl
    refine ⟨.refl, ?_⟩
    simp only
    split
    · trivial
    · rename_i seen hrow
      rcases updateFrom_cases user k body seen with ⟨r, hr⟩ | ⟨w, rfl, -, rfl, howner, hgo⟩
      · rw [hr]
        trivial
      · have howned : w.Owned S.store := by
          refine ⟨howner, Table.lt_next hrow, fun r hr => ?_⟩
          rw [hrow] at hr
          cases hr
          rfl
        rcases hgo with heq | heq | ⟨heq, hstart⟩
        · rw [heq]
          exact howned
        · rw [heq]
          exact howned
        · rw [heq]
          exact go_counted howned fun hnew hseen => (hstart hx hnew hseen).elim
  | activateFlush w =>
    obtain ⟨rfl, rfl⟩ := h.of_lock rfl
    exact ⟨.refl, hx⟩
  | activateLock w =>
    obtain ⟨rfl, rfl⟩ := h.of_lock rfl
    exact ⟨.refl, hx, List.mem_cons_self⟩
  | activateCount w =>
    obtain ⟨rfl, rfl⟩ := h.of_read rfl
    refine ⟨.refl, ?_⟩
    simp only [maxActive_eq hmax hn]
    split
    · trivial
    · rename_i hroom
      refine go_counted hx.1 fun _ _ => ⟨hx.2, fun hu => ?_⟩
      rw [hu] at hroom
      exact_mod_cast not_le.1 hroom
  | lockRow w =>
    obtain ⟨rfl, rfl⟩ := h.of_lock rfl
    exact ⟨.refl, hx.1, fun hnew hseen => ⟨List.mem_cons_of_mem _ (hx.2 hnew hseen).1, (hx.2 hnew hseen).2⟩⟩
  | commit w =>
    obtain ⟨rfl, rfl⟩ := h.of_commit rfl
    exact ⟨counts_commit hx.1 hx.2, trivial⟩
  | delete user k =>
    obtain ⟨rfl, rfl⟩ := h.of_read rfl
    refine ⟨.refl, ?_⟩
    simp only
    split
    · trivial
    · split <;> trivial
  | eraseLock k =>
    obtain ⟨rfl, rfl⟩ := h.of_lock rfl
    exact ⟨.refl, trivial⟩
  | erase k =>
    obtain ⟨rfl, rfl⟩ := h.of_commit rfl
    exact ⟨counts_erase, trivial⟩
  | moderate | adminUpdate => exact hx.elim
  | answered r => exact (h.of_done rfl).elim

theorem ServiceWrite.Owned.stable {w : ServiceWrite} {other : List ServiceLock} (hc : Counts n u other s t) (ho : w.Owned s) :
    w.Owned t where
  same := ho.same
  old := ho.old.trans_le hc.next
  row r hr := by
    obtain ⟨r₀, hr₀, howner⟩ := hc.owners _ r ho.old hr
    exact howner.symm.trans (ho.row r₀ hr₀)

/-- While a session holds the lock of the owner, nobody else adds a counted service. -/
theorem Room.stable {other : List ServiceLock} (hc : Counts n u other s t) (hapart : ∀ r ∈ held, r ∉ other)
    (h : Room n u s held v) : Room n u t held v := by
  refine ⟨h.1, fun hv => ?_⟩
  subst hv
  rcases hc.count v with hle | ⟨hroom, -⟩
  · exact hle.trans_lt (h.2 rfl)
  · exact absurd hroom.1 (hapart _ h.1)

theorem Counted.stable {other : List ServiceLock} (hc : Counts n u other s t) (hapart : ∀ r ∈ held, r ∉ other)
    (h : pc.Counted n u s held) : pc.Counted n u t held := by
  cases pc with
  | createCommit row => exact Room.stable hc hapart h
  | activateFlush w | activateLock w => exact ServiceWrite.Owned.stable hc h
  | activateCount w => exact ⟨h.1.stable hc, h.2⟩
  | lockRow w | commit w => exact ⟨h.1.stable hc, fun hnew hseen => (h.2 hnew hseen).stable hc hapart⟩
  | _ => exact h

/-- The requests are those of owners: no admin, and no moderation. -/
def OwnersOnly : Event ServiceOp → ServiceSys → Prop
  | .start (.update user _ _), _ => user.is_admin = false
  | .start (.moderate ..), _ | .start (.adminUpdate ..), _ => False
  | _, _ => True

/-- With a configured maximum of at least one, no run of owners' requests takes an owner past it. -/
theorem quota_holds {start : ServiceStore} {S : ServiceSys} (hmax : start.max_active = some (some (n : ℤ))) (hn : 1 ≤ n)
    (h0 : start.activeCount u ≤ n) (h : Reach ServiceStep OwnersOnly (.idle start) S) : S.store.activeCount u ≤ n := by
  have hx := h.with_invariant (I := fun S => S.Exclusive) fun S hS => exclusive hS
  have hI := (outline_started (I := fun s => s.max_active = some (some (n : ℤ)) ∧ s.activeCount u ≤ n)
    (L := fun s _ x => x.pc.Counted n u s x.held) hx ⟨hmax, h0⟩ ?_ ?_ ?_).1
  · exact hI.2
  · rintro S op i - ⟨hok, -⟩
    cases op with
    | create | delete => trivial
    | update => exact hok
    | moderate | adminUpdate => exact hok.elim
  · rintro S i x y t ⟨hmax, hcount⟩ hL ⟨-, hexcl⟩ hx hmove
    obtain ⟨hc, hy⟩ := counted_move hmove (hL i x hx) hmax hn
    refine ⟨⟨hc.config.trans hmax, ?_⟩, hy, fun j z hj hz => ?_⟩
    · rcases hc.count u with hle | ⟨hroom, hle⟩
      · exact hle.trans hcount
      · exact hle.trans (hroom.2 rfl)
    · exact Counted.stable hc (fun r hr hr' => hexcl j z hz r hr i x (Ne.symm hj) hx hr') (hL j z hz)
  · rintro S t - - hother
    exact hother.elim

def sampleServiceCreate : ServiceCreate := ⟨"design", "Логотип", "", 100, []⟩

/-- What it inserts. -/
def sampleService : Service := ⟨1, 1, "Логотип", "", 100, .active, none, [], 0, 0, 0, none⟩

/-- No services yet, and the given maximum. -/
def sampleServices (max_active : ℤ) : ServiceStore :=
  ⟨some (some max_active), fun slug => if slug = "design" then some 1 else none, Table.empty, fun _ => none⟩

/-- Two requests for a first service under a maximum of one: the second waits for the lock and meets the limit. -/
theorem sampleServices_quota : ∃ S, Reach ServiceStep OwnersOnly (.idle (sampleServices 1)) S ∧
    (S.sessions.row 2).map (·.pc) = some (.answered (.error (.http 400
      "Достигнут лимит активных услуг (1). Поставьте часть на паузу или удалите."))) ∧
    S.store.activeCount 1 = 1 ∧ S.store.activeCount 1 ≤ 1 := by
  have h₀ : Reach ServiceStep OwnersOnly (.idle (sampleServices 1)) (.idle (sampleServices 1)) := .refl
  have h₁ := run_start h₀ (.create ⟨1, false⟩ sampleServiceCreate) trivial
  have h₂ := run_start h₁ (.create ⟨1, false⟩ sampleServiceCreate) trivial
  have h₃ := run_read (p := .createLock sampleService) h₂ 1 rfl rfl (by decide +kernel) trivial
  have h₄ := run_read (p := .createLock sampleService) h₃ 2 rfl rfl (by decide +kernel) trivial
  have h₅ := run_lock h₄ 1 rfl rfl (Sys.freeFor_of_check (by decide)) trivial
  have h₆ := run_read (p := .createCommit sampleService) h₅ 1 rfl rfl (by decide +kernel) trivial
  have h₇ := run_commit (p := .answered (.ok ())) h₆ 1 rfl rfl rfl trivial
  have h₈ := run_lock h₇ 2 rfl rfl (Sys.freeFor_of_check (by decide)) trivial
  have h₉ := run_read (p := .answered (.error (.http 400
    "Достигнут лимит активных услуг (1). Поставьте часть на паузу или удалите."))) h₈ 2 rfl rfl (by decide +kernel) trivial
  exact ⟨_, h₉, by decide +kernel, by decide +kernel, quota_holds (n := 1) rfl le_rfl (by decide +kernel) h₉⟩

/-- A configured zero lets the first service through. -/
theorem zero_quota_passed : ¬ ∀ (n u : ℕ) (start : ServiceStore) (S : ServiceSys), start.max_active = some (some (n : ℤ)) →
    start.activeCount u ≤ n → Reach ServiceStep OwnersOnly (.idle start) S → S.store.activeCount u ≤ n := by
  intro hall
  have h₀ : Reach ServiceStep OwnersOnly (.idle (sampleServices 0)) (.idle (sampleServices 0)) := .refl
  have h₁ := run_start h₀ (.create ⟨1, false⟩ sampleServiceCreate) trivial
  have h₂ := run_read (p := .createLock sampleService) h₁ 1 rfl rfl (by decide +kernel) trivial
  have h₃ := run_lock h₂ 1 rfl rfl (Sys.freeFor_of_check (by decide)) trivial
  have h₄ := run_read (p := .createCommit sampleService) h₃ 1 rfl rfl (by decide +kernel) trivial
  have h₅ := run_commit (p := .answered (.ok ())) h₄ 1 rfl rfl rfl trivial
  have hcount := hall 0 1 _ _ rfl (by decide +kernel) h₅
  revert hcount
  decide +kernel

/-! ## Bans -/

/-- Every service that the admins left banned is banned for the reason they gave. -/
structure BansStick (s : ServiceStore) : Prop where
  stick : ∀ k reason, s.bans k = some reason → ∀ row, s.services.row k = some row →
    row.status = .banned ∧ row.ban_reason = reason
  old : ∀ k, s.services.next ≤ k → s.bans k = none

theorem ban_eq_some {reason : Option String} (h : x.ban = some reason) : x.status = .banned ∧ x.ban_reason = reason := by
  unfold Service.ban at h
  split at h
  · rename_i hbanned
    cases h
    exact ⟨hbanned, rfl⟩
  · cases h

theorem BansStick.of_rows (h : ∀ k, s.bans k = (s.services.row k).bind Service.ban) : BansStick s where
  stick k reason hk row hrow := by
    rw [h, hrow] at hk
    exact ban_eq_some hk
  old k hk := by rw [h, s.services.fresh k hk, Option.bind_none]

/-- The statements that write. -/
theorem service_writes {S : ServiceSys} {x y : Transactions.Session ServiceLock ServicePc}
    (h : Moves ServicePc.move S i x y t) :
    t = S.store ∨ (∃ row, t = { S.store with services := S.store.services.insert row }) ∨
      (∃ k, t = { S.store with services := S.store.services.erase k }) ∨
      ∃ w, x.pc = .commit w ∧ t = w.commit S.store := by
  have hdoes := h.does
  cases hpc : x.pc with
  | createCommit row =>
    rw [hpc] at hdoes
    exact .inr (.inl ⟨row, hdoes.2⟩)
  | erase k =>
    rw [hpc] at hdoes
    exact .inr (.inr (.inl ⟨k, hdoes.2⟩))
  | commit w =>
    rw [hpc] at hdoes
    exact .inr (.inr (.inr ⟨w, rfl, hdoes.2⟩))
  | answered r =>
    rw [hpc] at hdoes
    exact hdoes.elim
  | _ =>
    rw [hpc] at hdoes
    exact .inl hdoes.2

theorem BansStick.insert (h : BansStick s) : BansStick { s with services := s.services.insert row } where
  stick k reason hk r hr := by
    rw [Table.insert_row] at hr
    split at hr
    · rename_i hnew
      have hnone := h.old k hnew.ge
      rw [hnone] at hk
      cases hk
    · exact h.stick k reason hk r hr
  old k hk := h.old k (Nat.le_of_succ_le hk)

theorem BansStick.erase (h : BansStick s) : BansStick { s with services := s.services.erase k } where
  stick j reason hj r hr := by
    rw [Table.erase_row] at hr
    split at hr
    · cases hr
    · exact h.stick j reason hj r hr
  old := h.old

/-- An admin's write records its ban; another one must leave a ban alone. -/
theorem BansStick.commit (h : BansStick s)
    (hw : w.by_admin = false → ∀ cur, s.services.row w.service_id = some cur → cur.status = .banned →
      w.new.status = w.seen.status ∧ w.new.ban_reason = w.seen.ban_reason) : BansStick (w.commit s) := by
  cases hcur : s.services.row w.service_id with
  | none => simpa only [ServiceWrite.commit, hcur] using h
  | some cur =>
    have hlt := Table.lt_next hcur
    refine ⟨fun k reason hk row hrow => ?_, fun k hk => ?_⟩
    · obtain ⟨cur', hcur', rfl⟩ := ServiceWrite.commit_row hrow
      simp only [ServiceWrite.commit, hcur] at hk
      by_cases hk' : k = w.service_id
      · subst hk'
        obtain rfl : cur = cur' := Option.some_inj.1 (hcur.symm.trans hcur')
        rw [if_pos rfl]
        by_cases hadmin : w.by_admin = true
        · rw [if_pos hadmin, Function.update_self] at hk
          exact ban_eq_some hk
        · rw [if_neg hadmin] at hk
          obtain ⟨hbanned, hreason⟩ := h.stick _ _ hk cur hcur
          obtain ⟨hstatus, hban⟩ := hw (Bool.eq_false_iff.2 hadmin) cur hcur hbanned
          simp only [flushService, hstatus, hban, column_unchanged]
          exact ⟨hbanned, hreason⟩
      · rw [if_neg hk']
        split at hk
        · rw [Function.update_of_ne hk'] at hk
          exact h.stick k reason hk cur' hcur'
        · exact h.stick k reason hk cur' hcur'
    · rw [ServiceWrite.commit_next] at hk
      have hk' : k ≠ w.service_id := (hlt.trans_le hk).ne'
      simp only [ServiceWrite.commit, hcur]
      split
      · rw [Function.update_of_ne hk']
        exact h.old k hk
      · exact h.old k hk

/-- What an owner's request carries was checked. -/
def ServicePc.Checked : ServicePc → Prop
  | .activateFlush w | .activateLock w | .activateCount w | .lockRow w | .commit w => w.Checked
  | _ => True

theorem go_checked (h : w.Checked) : w.go.Checked := by
  unfold ServiceWrite.go
  split
  · exact h
  · exact h

theorem checked_move {S : ServiceSys} {x y : Transactions.Session ServiceLock ServicePc} (h : Moves ServicePc.move S i x y t)
    (hx : x.pc.Checked) : y.pc.Checked := by
  obtain ⟨pc, held⟩ := x
  cases pc with
  | create user body | createCount row | delete user k =>
    obtain ⟨rfl, -⟩ := h.of_read rfl
    simp only
    repeat' split
    all_goals trivial
  | createLock row | activateFlush w | activateLock w | lockRow w | eraseLock k =>
    obtain ⟨rfl, -⟩ := h.of_lock rfl
    exact hx
  | createCommit row | commit w | erase k =>
    obtain ⟨rfl, -⟩ := h.of_commit rfl
    trivial
  | update user k body =>
    obtain ⟨rfl, -⟩ := h.of_read rfl
    simp only
    split
    · trivial
    · rename_i seen _
      rcases updateFrom_cases user k body seen with ⟨r, hr⟩ | ⟨w, -, hchecked, -, -, hgo⟩
      · rw [hr]
        trivial
      · rcases hgo with heq | heq | ⟨heq, -⟩
        · rw [heq]
          exact hchecked
        · rw [heq]
          exact hchecked
        · rw [heq]
          exact go_checked hchecked
  | activateCount w =>
    obtain ⟨rfl, -⟩ := h.of_read rfl
    simp only
    split
    · trivial
    · exact go_checked hx
  | moderate k action reason =>
    obtain ⟨rfl, -⟩ := h.of_read rfl
    simp only
    split
    · trivial
    · split
      · trivial
      · exact go_checked (.of_admin rfl)
  | adminUpdate k body =>
    obtain ⟨rfl, -⟩ := h.of_read rfl
    simp only
    split
    · trivial
    · exact go_checked (.of_admin rfl)
  | answered r => exact (h.of_done rfl).elim

/-- No service is banned between the load and the commit of an owner's update that asks for
a status: where one is banned at the commit, it was when it was loaded. -/
def LeavesBans : Event ServiceOp → ServiceSys → Prop
  | .move i, S => ∀ x w cur, S.sessions.row i = some x → x.pc = .commit w → w.by_admin = false → w.Restates →
      S.store.services.row w.service_id = some cur → cur.status = .banned → w.seen.status = .banned
  | _, _ => True

/-- What the admins banned stays banned, for their reason, until they change it. -/
theorem ban_sticks {start : ServiceStore} {S : ServiceSys}
    (h0 : ∀ k, start.bans k = (start.services.row k).bind Service.ban)
    (h : Reach ServiceStep LeavesBans (.idle start) S) :
    ∀ k reason, S.store.bans k = some reason → ∀ row, S.store.services.row k = some row →
      row.status = .banned ∧ row.ban_reason = reason := by
  have hI := (outline (I := BansStick) (L := fun _ _ x => x.pc.Checked) h (.of_rows h0) ?_ ?_ ?_).1
  · exact hI.stick
  · rintro op S i -
    cases op <;> trivial
  · rintro S i x y t hI hL hok hx hmove
    refine ⟨?_, checked_move hmove (hL i x hx), fun j z _ hz => hL j z hz⟩
    rcases service_writes hmove with rfl | ⟨row, rfl⟩ | ⟨k, rfl⟩ | ⟨w, hpc, rfl⟩
    · exact hI
    · exact hI.insert
    · exact hI.erase
    · have hw : w.Checked := by
        have hx := hL i x hx
        rwa [hpc] at hx
      refine hI.commit fun hadmin cur hcur hbanned => hw.kept hadmin fun hasks => ?_
      -- the ban came after the load, which saw none
      exact hw.seen hadmin (hok x w cur hx hpc hadmin hasks hcur hbanned)
  · rintro S t - - hother
    exact hother.elim

/-- A paused service. -/
def samplePaused : Service := { sampleService with status := .paused }

/-- The store with that service only. -/
def samplePausedServices : ServiceStore := { sampleServices 10 with services := Table.empty.insert samplePaused }

/-- Its ban. -/
def sampleBan : ServiceWrite :=
  ⟨1, true, some .banned, samplePaused, { samplePaused with status := .banned, ban_reason := some "Спам" }⟩

/-- The owner's request to make a draft of it. -/
def sampleDraft : ServiceUpdate := ⟨none, none, none, some "draft", none⟩

/-- What that request is going to write. -/
def sampleDraftWrite : ServiceWrite := ⟨1, false, some .draft, samplePaused, { samplePaused with status := .draft }⟩

theorem samplePausedServices_bans (k : ℕ) :
    samplePausedServices.bans k = (samplePausedServices.services.row k).bind Service.ban := by
  show none = ((Table.empty.insert samplePaused).row k).bind Service.ban
  rw [Table.insert_row]
  split <;> rfl

/-- The owner and an admin have both loaded the service; the owner's draft commits, then the ban. -/
theorem samplePaused_banned : ∃ S, Reach ServiceStep LeavesBans (.idle samplePausedServices) S ∧
    S.store.bans 1 = some (some "Спам") ∧
    ∀ row, S.store.services.row 1 = some row → row.status = .banned ∧ row.ban_reason = some "Спам" := by
  have h₀ : Reach ServiceStep LeavesBans (.idle samplePausedServices) (.idle samplePausedServices) := .refl
  have h₁ := run_start h₀ (.update ⟨1, false⟩ 1 sampleDraft) trivial
  have h₂ := run_read (p := .lockRow sampleDraftWrite) h₁ 1 rfl rfl (by decide +kernel)
    (by rintro x w cur hx hw; cases hx; cases hw)
  have h₃ := run_start h₂ (.moderate 1 "ban" "Спам") trivial
  have h₄ := run_read (p := .lockRow sampleBan) h₃ 2 rfl rfl (by decide +kernel)
    (by rintro x w cur hx hw; cases hx; cases hw)
  have h₅ := run_lock h₄ 1 rfl rfl (Sys.freeFor_of_check (by decide)) (by rintro x w cur hx hw; cases hx; cases hw)
  have h₆ := run_commit (p := .answered (.ok ())) h₅ 1 rfl rfl rfl (by
    -- at the owner's commit the service is paused
    rintro x w cur hx hw - - hcur hbanned
    cases hx
    cases hw
    cases hcur
    cases hbanned)
  have h₇ := run_lock h₆ 2 rfl rfl (Sys.freeFor_of_check (by decide)) (by rintro x w cur hx hw; cases hx; cases hw)
  have h₈ := run_commit (p := .answered (.ok ())) h₇ 2 rfl rfl rfl (by
    rintro x w cur hx hw hadmin
    cases hx
    cases hw
    cases hadmin)
  exact ⟨_, h₈, by decide +kernel, ban_sticks samplePausedServices_bans h₈ 1 _ (by decide +kernel)⟩

/-- The owner's request has loaded the service; the ban commits; the request
lands and the service is a draft that keeps the ban reason. -/
theorem owner_lifts_ban : ¬ ∀ (start : ServiceStore) (S : ServiceSys),
    (∀ k, start.bans k = (start.services.row k).bind Service.ban) → Reach ServiceStep Free (.idle start) S →
    ∀ k reason, S.store.bans k = some reason → ∀ row, S.store.services.row k = some row →
      row.status = .banned ∧ row.ban_reason = reason := by
  intro hall
  have h₀ : Reach ServiceStep Free (.idle samplePausedServices) (.idle samplePausedServices) := .refl
  have h₁ := run_start h₀ (.update ⟨1, false⟩ 1 sampleDraft) trivial
  have h₂ := run_read (p := .lockRow sampleDraftWrite) h₁ 1 rfl rfl (by decide +kernel) trivial
  have h₃ := run_start h₂ (.moderate 1 "ban" "Спам") trivial
  have h₄ := run_read (p := .lockRow sampleBan) h₃ 2 rfl rfl (by decide +kernel) trivial
  have h₅ := run_lock h₄ 2 rfl rfl (Sys.freeFor_of_check (by decide)) trivial
  have h₆ := run_commit (p := .answered (.ok ())) h₅ 2 rfl rfl rfl trivial
  have h₇ := run_lock h₆ 1 rfl rfl (Sys.freeFor_of_check (by decide)) trivial
  have h₈ := run_commit (p := .answered (.ok ())) h₇ 1 rfl rfl rfl trivial
  have hstick := hall _ _ samplePausedServices_bans h₈ 1 (some "Спам") (by decide +kernel) _ rfl
  revert hstick
  decide +kernel

end Garant
