import Garant.Lib.Runs
import Garant.Lib.Table
import Garant.Schema
/-!
# The maintenance flag

`_get_maintenance` answers from a cache of five seconds that each worker keeps,
and refreshes it from the settings row behind a lock. Its calls run interleaved
at their awaits: waiting for the lock, the row read but the answer not yet
back. `flag_fresh` says when no call answers with a row older than the last
toggle its worker was told of, and `served_in_time` that no row is served for
longer than five seconds in any run.
-/

namespace Garant

/-! ## The code between two awaits -/

/-- What `_load_from_db` reads of the settings row. -/
structure MaintenanceSettings where
  maintenance_enabled : Bool
  maintenance_message : Option String
deriving DecidableEq

/-- `_load_from_db`, of the row if there is one. -/
def loadFromDb : Option MaintenanceSettings → Bool × String
  | none => (false, "")
  | some row => (row.maintenance_enabled, row.maintenance_message.getD "")

/-- What is answered when the read fails. -/
def fallback (maintenance_fail_closed : Bool) : Bool × String :=
  if maintenance_fail_closed then (true, "Сервис временно недоступен (проверка статуса не удалась).") else (false, "")

def _TTL_SECONDS : Time := seconds 5

/-- Where a value comes from: the row after the `version`-th commit, by a read
that completed at `completed`, or a read that failed. The code does not keep it. -/
inductive Origin
  | read (version : ℕ) (completed : Time)
  | failed
deriving DecidableEq

/-- `_cache`. -/
structure CacheEntry where
  expires_at : Time
  value : Bool × String
  origin : Origin
deriving DecidableEq

/-- The entry `_get_maintenance` answers with, if it has not expired. -/
def cached (cache : Option CacheEntry) (now : Time) : Option CacheEntry := cache.filter fun e => now < e.expires_at

/-! ## Workers -/

/-- Where a call of `_get_maintenance` waits. -/
inductive FlagPhase
  /-- For the lock. -/
  | waiting
  /-- For the database, the row not yet read. -/
  | reading
  /-- For the database, the row read. -/
  | fetched (version : ℕ) (value : Bool × String)
deriving DecidableEq

/-- A call on a worker; `since` is the newest toggle the worker had been told of when it started. -/
structure FlagCall where
  worker : ℕ
  since : ℕ
  phase : FlagPhase
deriving DecidableEq

/-- What a call returned and when; `own` tells whether it made the read itself. -/
structure FlagAnswer where
  worker : ℕ
  since : ℕ
  now : Time
  value : Bool × String
  origin : Origin
  own : Bool
deriving DecidableEq

/-- All workers and the settings row after each commit. `due` are the commits
whose `invalidate_cache` is still to come, by worker, and `told` the newest
commit for which a worker's came. -/
structure Workers where
  maintenance_fail_closed : Bool
  version : ℕ
  row : ℕ → Option MaintenanceSettings
  due : List (ℕ × ℕ)
  told : ℕ → ℕ
  cache : ℕ → Option CacheEntry
  lock : ℕ → Option ℕ
  calls : Table FlagCall
  answers : List FlagAnswer

inductive FlagAct
  /-- Up to the wait for the lock, or the answer if there is nothing to wait for. -/
  | start (worker : ℕ) (now : Time)
  /-- The lock is had: up to the wait for the database, or the answer. -/
  | acquire (call : ℕ) (now : Time)
  /-- The database reads the row. -/
  | fetch (call : ℕ)
  | finish (call : ℕ) (now : Time)
  | fail (call : ℕ) (now : Time)
  | cancel (call : ℕ)
  /-- The settings handler commits a row. -/
  | commit (worker : ℕ) (row : MaintenanceSettings)
  /-- And its `invalidate_cache` after the `version`-th commit. -/
  | invalidate (worker version : ℕ)

namespace Workers

def start (maintenance_fail_closed : Bool) (row : Option MaintenanceSettings) : Workers where
  maintenance_fail_closed
  version := 0
  row _ := row
  due := []
  told _ := 0
  cache _ := none
  lock _ := none
  calls := .empty
  answers := []

/-- A call answers with an entry. -/
def reply (s : Workers) (worker since : ℕ) (now : Time) (e : CacheEntry) (own : Bool) : Workers :=
  { s with answers := ⟨worker, since, now, e.value, e.origin, own⟩ :: s.answers }

/-- A call ends and gives the lock back if it holds it. -/
def leave (s : Workers) (i : ℕ) (c : FlagCall) : Workers :=
  { s with
    calls := s.calls.erase i
    lock := if s.lock c.worker = some i then Function.update s.lock c.worker none else s.lock }

/-- A call stores what it read and answers with it. -/
def refresh (s : Workers) (i : ℕ) (c : FlagCall) (now : Time) (e : CacheEntry) : Workers :=
  ({ s with cache := Function.update s.cache c.worker (some e) }.leave i c).reply c.worker c.since now e true

def exec (s : Workers) : FlagAct → Option Workers
  | .start w now =>
    match cached (s.cache w) now with
    | some e => some (s.reply w (s.told w) now e false)
    | none => some { s with calls := s.calls.insert ⟨w, s.told w, .waiting⟩ }
  | .acquire i now => do
    let c ← s.calls.row i
    guard (c.phase = .waiting ∧ s.lock c.worker = none)
    match cached (s.cache c.worker) now with
    | some e => some ((s.leave i c).reply c.worker c.since now e false)
    | none =>
      some { s with calls := s.calls.set i { c with phase := .reading }, lock := Function.update s.lock c.worker (some i) }
  | .fetch i => do
    let c ← s.calls.row i
    guard (c.phase = .reading)
    some { s with calls := s.calls.set i { c with phase := .fetched s.version (loadFromDb (s.row s.version)) } }
  | .finish i now => do
    let c ← s.calls.row i
    match c.phase with
    | .fetched version value => some (s.refresh i c now ⟨now + _TTL_SECONDS, value, .read version now⟩)
    | _ => none
  | .fail i now => do
    let c ← s.calls.row i
    guard (c.phase ≠ .waiting)
    some (s.refresh i c now ⟨now + seconds 1, fallback s.maintenance_fail_closed, .failed⟩)
  | .cancel i => do
    let c ← s.calls.row i
    some (s.leave i c)
  | .commit w row =>
    some { s with
      version := s.version + 1, row := Function.update s.row (s.version + 1) (some row),
      due := (w, s.version + 1) :: s.due }
  | .invalidate w version => do
    guard ((w, version) ∈ s.due)
    some { s with
      due := s.due.erase (w, version), told := Function.update s.told w (max (s.told w) version),
      cache := Function.update s.cache w none }

end Workers

def FlagStep (a : FlagAct) (s t : Workers) : Prop := s.exec a = some t

/-! ## What an answer should be -/

/-- The value is that of the row after the `version`-th commit. -/
def Workers.Row (s : Workers) (version : ℕ) (value : Bool × String) : Prop :=
  version ≤ s.version ∧ value = loadFromDb (s.row version)

/-- The answer is that of the call's own failed read, or a row committed no earlier than
the last toggle its worker was told of before the call. -/
def FlagAnswer.Fresh (s : Workers) (a : FlagAnswer) : Prop :=
  (a.own = true ∧ a.origin = .failed) ∨ ∃ version, a.since ≤ version ∧ s.Row version a.value

/-- A row is served for five seconds after its read completed at most. -/
def FlagAnswer.InTime (s : Workers) (a : FlagAnswer) : Prop :=
  ∀ version completed, a.origin = .read version completed → s.Row version a.value ∧ a.now ≤ completed + seconds 5

/-- The cache does not answer with the result of a failed read. -/
def Workers.Answers (s : Workers) (worker : ℕ) (now : Time) : Prop :=
  ∀ e, cached (s.cache worker) now = some e → e.origin ≠ .failed

/-- No call is answered with another's failed read, and no row is stored that
was read before a toggle the worker has been told of since. -/
def FlagAct.Ok (a : FlagAct) (s : Workers) : Prop :=
  match a with
  | .start w now => s.Answers w now
  | .acquire i now => ∀ c, s.calls.row i = some c → s.Answers c.worker now
  | .finish i _ => ∀ c version value, s.calls.row i = some c → c.phase = .fetched version value →
    s.told c.worker ≤ version
  | _ => True

/-! ## One step -/

/-- What a step does, by where it ends. -/
inductive FlagMove (s : Workers) : FlagAct → Workers → Prop
  | hit {w : ℕ} {now : Time} {e : CacheEntry} (he : s.cache w = some e) (hnow : now < e.expires_at) :
      FlagMove s (.start w now) (s.reply w (s.told w) now e false)
  | wait {w : ℕ} {now : Time} :
      FlagMove s (.start w now) { s with calls := s.calls.insert ⟨w, s.told w, .waiting⟩ }
  | hitLate {i : ℕ} {c : FlagCall} {now : Time} {e : CacheEntry} (hc : s.calls.row i = some c)
      (he : s.cache c.worker = some e) (hnow : now < e.expires_at) :
      FlagMove s (.acquire i now) ((s.leave i c).reply c.worker c.since now e false)
  | read {i : ℕ} {c : FlagCall} {now : Time} (hc : s.calls.row i = some c) :
      FlagMove s (.acquire i now) { s with
        calls := s.calls.set i { c with phase := .reading }, lock := Function.update s.lock c.worker (some i) }
  | fetch {i : ℕ} {c : FlagCall} (hc : s.calls.row i = some c) :
      FlagMove s (.fetch i)
        { s with calls := s.calls.set i { c with phase := .fetched s.version (loadFromDb (s.row s.version)) } }
  | finish {i version : ℕ} {c : FlagCall} {now : Time} {value : Bool × String} (hc : s.calls.row i = some c)
      (hp : c.phase = .fetched version value) :
      FlagMove s (.finish i now) (s.refresh i c now ⟨now + _TTL_SECONDS, value, .read version now⟩)
  | fail {i : ℕ} {c : FlagCall} {now : Time} (hc : s.calls.row i = some c) :
      FlagMove s (.fail i now)
        (s.refresh i c now ⟨now + seconds 1, fallback s.maintenance_fail_closed, .failed⟩)
  | cancel {i : ℕ} {c : FlagCall} (hc : s.calls.row i = some c) : FlagMove s (.cancel i) (s.leave i c)
  | commit {w : ℕ} {row : MaintenanceSettings} :
      FlagMove s (.commit w row) { s with
        version := s.version + 1, row := Function.update s.row (s.version + 1) (some row),
        due := (w, s.version + 1) :: s.due }
  | invalidate {w version : ℕ} (hd : (w, version) ∈ s.due) :
      FlagMove s (.invalidate w version) { s with
        due := s.due.erase (w, version), told := Function.update s.told w (max (s.told w) version),
        cache := Function.update s.cache w none }

section
variable {s t : Workers} {a : FlagAct} {i : ℕ} {c : FlagCall}

@[simp] theorem reply_calls {w since : ℕ} {now : Time} {e : CacheEntry} {own : Bool} :
    (s.reply w since now e own).calls = s.calls := rfl

@[simp] theorem leave_calls : (s.leave i c).calls = s.calls.erase i := rfl

@[simp] theorem refresh_calls {now : Time} {e : CacheEntry} : (s.refresh i c now e).calls = s.calls.erase i := rfl

theorem cached_eq_some {cache : Option CacheEntry} {now : Time} {e : CacheEntry} :
    cached cache now = some e ↔ cache = some e ∧ now < e.expires_at := by
  rw [cached, Option.filter_eq_some_iff, decide_eq_true_eq]

theorem flag_move (h : FlagStep a s t) : FlagMove s a t := by
  cases a with
  | start w now =>
    simp only [FlagStep, Workers.exec] at h
    split at h
    · rename_i e he
      cases h
      obtain ⟨he, hnow⟩ := cached_eq_some.1 he
      exact .hit he hnow
    · cases h
      exact .wait
  | acquire i now =>
    simp only [FlagStep, Workers.exec, Option.bind_eq_bind, Option.bind_eq_some_iff] at h
    obtain ⟨c, hc, _, -, h⟩ := h
    split at h
    · rename_i e he
      cases h
      obtain ⟨he, hnow⟩ := cached_eq_some.1 he
      exact .hitLate hc he hnow
    · cases h
      exact .read hc
  | fetch i =>
    simp only [FlagStep, Workers.exec, Option.bind_eq_bind, Option.bind_eq_some_iff] at h
    obtain ⟨c, hc, _, -, h⟩ := h
    cases h
    exact .fetch hc
  | finish i now =>
    simp only [FlagStep, Workers.exec, Option.bind_eq_bind, Option.bind_eq_some_iff] at h
    obtain ⟨c, hc, h⟩ := h
    split at h
    · rename_i version value hp
      cases h
      exact .finish hc hp
    · cases h
  | fail i now =>
    simp only [FlagStep, Workers.exec, Option.bind_eq_bind, Option.bind_eq_some_iff] at h
    obtain ⟨c, hc, _, -, h⟩ := h
    cases h
    exact .fail hc
  | cancel i =>
    simp only [FlagStep, Workers.exec, Option.bind_eq_bind, Option.bind_eq_some_iff] at h
    obtain ⟨c, hc, h⟩ := h
    cases h
    exact .cancel hc
  | commit w row =>
    cases h
    exact .commit
  | invalidate w version =>
    simp only [FlagStep, Workers.exec, Option.bind_eq_bind, Option.bind_eq_some_iff, Option.guard_eq_some'] at h
    obtain ⟨_, hd, h⟩ := h
    cases h
    exact .invalidate hd

/-- Committing leaves the earlier rows as they were. -/
theorem FlagMove.row {version : ℕ} {value : Bool × String} (h : FlagMove s a t) (hr : s.Row version value) :
    t.Row version value := by
  cases h with
  | commit =>
    refine ⟨hr.1.trans (Nat.le_succ _), ?_⟩
    show value = loadFromDb (Function.update s.row (s.version + 1) _ version)
    rw [Function.update_of_ne (Nat.lt_succ_of_le hr.1).ne]
    exact hr.2
  | _ => exact hr

/-- What a call has read. -/
theorem FlagMove.calls (h : FlagMove s a t) (hi : t.calls.row i = some c) :
    s.calls.row i = some c ∨ (∃ w, c = ⟨w, s.told w, .waiting⟩) ∨
      ∃ c', s.calls.row i = some c' ∧ (c = { c' with phase := .reading } ∨
        c = { c' with phase := .fetched s.version (loadFromDb (s.row s.version)) }) := by
  cases h with
  | hit | commit | invalidate => exact .inl hi
  | wait =>
    rw [Table.insert_row] at hi
    split at hi
    · cases hi
      exact .inr (.inl ⟨_, rfl⟩)
    · exact .inl hi
  | hitLate | cancel | finish | fail =>
    simp only [reply_calls, leave_calls, refresh_calls, Table.erase_row] at hi
    split at hi
    · cases hi
    · exact .inl hi
  | read hc =>
    rw [Table.set_row hc] at hi
    split at hi
    · subst i
      cases hi
      exact .inr (.inr ⟨_, hc, .inl rfl⟩)
    · exact .inl hi
  | fetch hc =>
    rw [Table.set_row hc] at hi
    split at hi
    · subst i
      cases hi
      exact .inr (.inr ⟨_, hc, .inr rfl⟩)
    · exact .inl hi

/-- A worker's entry is the one it had, unless a call has just stored another. -/
theorem FlagMove.cache {w : ℕ} {e : CacheEntry} (h : FlagMove s a t) (he : t.cache w = some e) :
    (s.cache w = some e ∧ t.told w = s.told w) ∨ e.origin = .failed ∨
      ∃ i c now version value, a = .finish i now ∧ s.calls.row i = some c ∧ c.worker = w ∧
        c.phase = .fetched version value ∧ e = ⟨now + _TTL_SECONDS, value, .read version now⟩ ∧ t.told w = s.told w := by
  cases h with
  | @finish i version c now value hc hp =>
    change Function.update s.cache c.worker _ w = some e at he
    rw [Function.update_apply] at he
    split at he
    · rename_i hw
      cases he
      exact .inr (.inr ⟨i, c, now, version, value, rfl, hc, hw.symm, hp, rfl, rfl⟩)
    · exact .inl ⟨he, rfl⟩
  | @fail i c now hc =>
    change Function.update s.cache c.worker _ w = some e at he
    rw [Function.update_apply] at he
    split at he
    · cases he
      exact .inr (.inl rfl)
    · exact .inl ⟨he, rfl⟩
  | @invalidate w' version hd =>
    change Function.update s.cache w' none w = some e at he
    rw [Function.update_apply] at he
    split at he
    · cases he
    · rename_i hw
      exact .inl ⟨he, Function.update_of_ne hw _ _⟩
  | _ => exact .inl ⟨he, rfl⟩

/-- A new answer: from the cache, or what the call has read itself. -/
inductive NewAnswer (s : Workers) (a : FlagAct) : FlagAnswer → Prop
  | hit {w : ℕ} {now : Time} {e : CacheEntry} (ha : a = .start w now) (he : s.cache w = some e)
      (hnow : now < e.expires_at) : NewAnswer s a ⟨w, s.told w, now, e.value, e.origin, false⟩
  | hitLate {i : ℕ} {c : FlagCall} {now : Time} {e : CacheEntry} (ha : a = .acquire i now)
      (hc : s.calls.row i = some c) (he : s.cache c.worker = some e) (hnow : now < e.expires_at) :
      NewAnswer s a ⟨c.worker, c.since, now, e.value, e.origin, false⟩
  | read {i version : ℕ} {c : FlagCall} {now : Time} {value : Bool × String} (ha : a = .finish i now)
      (hc : s.calls.row i = some c) (hp : c.phase = .fetched version value) :
      NewAnswer s a ⟨c.worker, c.since, now, value, .read version now, true⟩
  | failed {x : FlagAnswer} (hown : x.own = true) (hx : x.origin = .failed) : NewAnswer s a x

theorem FlagMove.answers {x : FlagAnswer} (h : FlagMove s a t) (hx : x ∈ t.answers) : x ∈ s.answers ∨ NewAnswer s a x := by
  cases h with
  | hit he hnow =>
    rcases List.mem_cons.1 hx with rfl | hx
    · exact .inr (.hit rfl he hnow)
    · exact .inl hx
  | hitLate hc he hnow =>
    rcases List.mem_cons.1 hx with rfl | hx
    · exact .inr (.hitLate rfl hc he hnow)
    · exact .inl hx
  | finish hc hp =>
    rcases List.mem_cons.1 hx with rfl | hx
    · exact .inr (.read rfl hc hp)
    · exact .inl hx
  | fail hc =>
    rcases List.mem_cons.1 hx with rfl | hx
    · exact .inr (.failed rfl rfl)
    · exact .inl hx
  | _ => exact .inl hx

/-! ## No row is served too long -/

/-- What a worker holds and has answered is what a read gave. -/
structure Workers.Served (s : Workers) : Prop where
  cache : ∀ w e version completed, s.cache w = some e → e.origin = .read version completed →
    s.Row version e.value ∧ e.expires_at = completed + seconds 5
  calls : ∀ i c version value, s.calls.row i = some c → c.phase = .fetched version value → s.Row version value
  answers : ∀ x ∈ s.answers, x.InTime s

theorem Workers.Served.hit {w : ℕ} {now : Time} {e : CacheEntry} (hs : s.Served) (h : FlagMove s a t)
    (he : s.cache w = some e) (hnow : now < e.expires_at) {since : ℕ} {own : Bool} :
    FlagAnswer.InTime t ⟨w, since, now, e.value, e.origin, own⟩ := by
  intro version completed ho
  obtain ⟨hrow, hexp⟩ := hs.cache w e version completed he ho
  exact ⟨h.row hrow, (hexp ▸ hnow).le⟩

theorem Workers.Served.step (hs : s.Served) (h : FlagMove s a t) : t.Served := by
  refine ⟨?_, ?_, ?_⟩
  · intro w e version completed he ho
    rcases h.cache he with ⟨he, -⟩ | hfail | ⟨i, c, now, version', value, -, hc, -, hp, rfl, -⟩
    · obtain ⟨hrow, hexp⟩ := hs.cache w e version completed he ho
      exact ⟨h.row hrow, hexp⟩
    · rw [hfail] at ho
      cases ho
    · cases ho
      exact ⟨h.row (hs.calls i c _ value hc hp), rfl⟩
  · intro i c version value hc hp
    rcases h.calls hc with hc | ⟨w, rfl⟩ | ⟨c', hc', rfl | rfl⟩
    · exact h.row (hs.calls i c version value hc hp)
    · cases hp
    · cases hp
    · cases hp
      exact h.row ⟨le_rfl, rfl⟩
  · intro x hx
    rcases h.answers hx with hx | hnew
    · intro version completed ho
      obtain ⟨hrow, hle⟩ := hs.answers x hx version completed ho
      exact ⟨h.row hrow, hle⟩
    cases hnew with
    | hit _ he hnow => exact hs.hit h he hnow
    | hitLate _ _ he hnow => exact hs.hit h he hnow
    | @read i version c now value _ hc hp =>
      rintro version' completed ⟨⟩
      exact ⟨h.row (hs.calls i c version value hc hp), le_add_of_nonneg_right (by decide)⟩
    | failed _ hfail =>
      intro version completed ho
      rw [hfail] at ho
      cases ho

theorem start_served (closed : Bool) (row : Option MaintenanceSettings) : (Workers.start closed row).Served where
  cache _ _ _ _ he := by cases he
  calls _ _ _ _ hc := by cases hc
  answers _ hx := by cases hx

/-- In every run no worker serves a row for longer than five seconds after its read completed. -/
theorem served_in_time {closed : Bool} {row : Option MaintenanceSettings} {Ok : FlagAct → Workers → Prop}
    (h : Reach FlagStep Ok (.start closed row) s) : s.Served :=
  h.invariant (start_served closed row) fun _ _ _ hI _ hstep => hI.step (flag_move hstep)

/-! ## No row is served from before a toggle -/

/-- What a worker holds is not older than the last toggle it was told of. -/
structure Workers.Heeds (s : Workers) : Prop where
  told : ∀ w, s.told w ≤ s.version
  due : ∀ w version, (w, version) ∈ s.due → version ≤ s.version
  cache : ∀ w e version completed, s.cache w = some e → e.origin = .read version completed → s.told w ≤ version
  since : ∀ i c, s.calls.row i = some c → c.since ≤ s.told c.worker
  fetched : ∀ i c version value, s.calls.row i = some c → c.phase = .fetched version value → c.since ≤ version
  answers : ∀ x ∈ s.answers, (x.own = true ∧ x.origin = .failed) ∨
    ∃ version completed, x.origin = .read version completed ∧ x.since ≤ version

theorem FlagMove.told (h : FlagMove s a t) (w : ℕ) : s.told w ≤ t.told w := by
  cases h with
  | @invalidate w' version hd =>
    show s.told w ≤ Function.update s.told w' _ w
    rw [Function.update_apply]
    split
    · subst w
      exact le_max_left _ _
    · exact le_rfl
  | _ => exact le_rfl

theorem Workers.Heeds.due_told (hs : s.Heeds) (h : FlagMove s a t) :
    (∀ w, t.told w ≤ t.version) ∧ ∀ w version, (w, version) ∈ t.due → version ≤ t.version := by
  cases h with
  | commit =>
    refine ⟨fun w => (hs.told w).trans (Nat.le_succ _), ?_⟩
    intro w version hd
    rcases List.mem_cons.1 hd with heq | hd
    · cases heq
      exact le_rfl
    · exact (hs.due w version hd).trans (Nat.le_succ _)
  | @invalidate w' version' hd =>
    refine ⟨?_, fun w version h => hs.due w version (List.mem_of_mem_erase h)⟩
    intro w
    show Function.update s.told w' _ w ≤ s.version
    rw [Function.update_apply]
    split
    · exact max_le (hs.told w') (hs.due w' version' hd)
    · exact hs.told w
  | _ => exact ⟨hs.told, hs.due⟩

/-- What a worker's unexpired entry answers, if it is not a failed read. -/
theorem Workers.Heeds.hit {w : ℕ} {now : Time} {e : CacheEntry} {since : ℕ} (hs : s.Heeds) (he : s.cache w = some e)
    (hnow : now < e.expires_at) (hok : s.Answers w now) (hsince : since ≤ s.told w) :
    ∃ version completed, e.origin = .read version completed ∧ since ≤ version := by
  cases ho : e.origin with
  | failed => exact absurd ho (hok e (cached_eq_some.2 ⟨he, hnow⟩))
  | read version completed => exact ⟨version, completed, rfl, hsince.trans (hs.cache w e version completed he ho)⟩

theorem Workers.Heeds.step (hs : s.Heeds) (hok : a.Ok s) (h : FlagMove s a t) : t.Heeds := by
  obtain ⟨htold, hdue⟩ := hs.due_told h
  refine ⟨htold, hdue, ?_, ?_, ?_, ?_⟩
  · intro w e version completed he ho
    rcases h.cache he with ⟨he, heq⟩ | hfail | ⟨i, c, now, version', value, rfl, hc, rfl, hp, rfl, heq⟩
    · rw [heq]
      exact hs.cache w e version completed he ho
    · rw [hfail] at ho
      cases ho
    · cases ho
      rw [heq]
      exact hok c _ value hc hp
  · intro i c hc
    rcases h.calls hc with hc | ⟨w, rfl⟩ | ⟨c', hc', rfl | rfl⟩
    · exact (hs.since i c hc).trans (h.told _)
    · exact h.told w
    · exact (hs.since i c' hc').trans (h.told _)
    · exact (hs.since i c' hc').trans (h.told _)
  · intro i c version value hc hp
    rcases h.calls hc with hc | ⟨w, rfl⟩ | ⟨c', hc', rfl | rfl⟩
    · exact hs.fetched i c version value hc hp
    · cases hp
    · cases hp
    · -- the row was read after the call started
      cases hp
      exact (hs.since i c' hc').trans (hs.told _)
  · intro x hx
    rcases h.answers hx with hx | hnew
    · exact hs.answers x hx
    cases hnew with
    | hit ha he hnow =>
      subst ha
      exact .inr (hs.hit he hnow hok le_rfl)
    | @hitLate i c now e ha hc he hnow =>
      subst ha
      exact .inr (hs.hit he hnow (hok c hc) (hs.since i c hc))
    | @read i version c now value _ hc hp => exact .inr ⟨version, now, rfl, hs.fetched i c version value hc hp⟩
    | failed hown hfail => exact .inl ⟨hown, hfail⟩

theorem start_heeds (closed : Bool) (row : Option MaintenanceSettings) : (Workers.start closed row).Heeds where
  told _ := le_rfl
  due _ _ hd := by cases hd
  cache _ _ _ _ he := by cases he
  since _ _ hc := by cases hc
  fetched _ _ _ _ hc := by cases hc
  answers _ hx := by cases hx

/-- In every run in which no call is answered with another's failed read and no
read outlives a toggle, every answer is fresh, and none is late. -/
theorem flag_fresh {closed : Bool} {row : Option MaintenanceSettings}
    (h : Reach FlagStep FlagAct.Ok (.start closed row) s) : ∀ x ∈ s.answers, x.Fresh s ∧ x.InTime s := by
  have hserved : s.Served := served_in_time h
  have hheeds : s.Heeds := h.invariant (start_heeds closed row) fun _ _ _ hI hok hstep => hI.step hok (flag_move hstep)
  intro x hx
  refine ⟨?_, hserved.answers x hx⟩
  rcases hheeds.answers x hx with hfail | ⟨version, completed, ho, hsince⟩
  · exact .inl hfail
  · exact .inr ⟨version, hsince, (hserved.answers x hx version completed ho).1⟩

end

/-! ## Runs -/

def sampleOff : Option MaintenanceSettings := some ⟨false, none⟩

/-- A read before the toggle completes before it; the call after it reads the row again. -/
def sampleToggle : List FlagAct :=
  [.start 0 0, .acquire 1 0, .fetch 1, .finish 1 (seconds 1), .start 0 (seconds 2), .commit 0 ⟨true, some "soon"⟩,
    .invalidate 0 1, .start 0 (seconds 3), .acquire 2 (seconds 3), .fetch 2, .finish 2 (seconds 3)]

instance (s : Workers) (worker : ℕ) (now : Time) : Decidable (s.Answers worker now) :=
  decidable_of_iff ((cached (s.cache worker) now).all fun e => e.origin ≠ .failed) (by
    rw [Option.all_eq_true]
    exact forall₂_congr fun _ _ => decide_eq_true_iff)

instance (a : FlagAct) (s : Workers) : Decidable (a.Ok s) :=
  match a with
  | .start w now => inferInstanceAs (Decidable (s.Answers w now))
  | .acquire i now => decidable_of_iff ((s.calls.row i).all fun c => s.Answers c.worker now) (by
      rw [Option.all_eq_true]
      exact forall₂_congr fun _ _ => decide_eq_true_iff)
  | .finish i _ =>
    decidable_of_iff ((s.calls.row i).all fun c => match c.phase with
      | .fetched version _ => s.told c.worker ≤ version
      | _ => true) (by
      rw [Option.all_eq_true]
      constructor
      · intro h c version value hc hp
        have hall := h c hc
        rw [hp] at hall
        exact of_decide_eq_true hall
      · intro h c hc
        cases hp : c.phase with
        | fetched version value => exact decide_eq_true (h c version value hc hp)
        | _ => rfl)
  | .fetch _ | .fail _ _ | .cancel _ | .commit _ _ | .invalidate _ _ => .isTrue trivial

theorem sampleToggle_fresh : ∃ s, Reach FlagStep FlagAct.Ok (.start false sampleOff) s ∧
    (⟨0, 1, seconds 3, (true, "soon"), .read 1 (seconds 3), true⟩ : FlagAnswer) ∈ s.answers ∧
      ∀ x ∈ s.answers, x.Fresh s ∧ x.InTime s := by
  have hrun : ∃ s, Reach FlagStep FlagAct.Ok (.start false sampleOff) s ∧
      (⟨0, 1, seconds 3, (true, "soon"), .read 1 (seconds 3), true⟩ : FlagAnswer) ∈ s.answers :=
    Reach.checked_of_some Workers.exec sampleToggle (by decide +kernel)
  obtain ⟨s, hs, hx⟩ := hrun
  exact ⟨s, hs, hx, flag_fresh hs⟩

/-- A read before the toggle completes after it. -/
def sampleOutlived : List FlagAct :=
  [.start 0 0, .acquire 1 0, .fetch 1, .commit 0 ⟨true, some "soon"⟩, .invalidate 0 1, .finish 1 (seconds 1),
    .start 0 (seconds 2)]

/-- The call after the toggle is still told that maintenance is off. -/
theorem read_outlives_toggle : ∃ s, Reach FlagStep Free (.start false sampleOff) s ∧
    s.row 1 = some ⟨true, some "soon"⟩ ∧
      (⟨0, 1, seconds 2, (false, ""), .read 0 (seconds 1), false⟩ : FlagAnswer) ∈ s.answers ∧
        ¬∀ x ∈ s.answers, x.Fresh s := by
  obtain ⟨s, hs, hv, hrow, hx⟩ := Reach.free_of_some (s := Workers.start false sampleOff)
    (p := fun s => s.version = 1 ∧ s.row 1 = some ⟨true, some "soon"⟩ ∧
      (⟨0, 1, seconds 2, (false, ""), .read 0 (seconds 1), false⟩ : FlagAnswer) ∈ s.answers)
    Workers.exec sampleOutlived (by decide +kernel)
  refine ⟨s, hs, hrow, hx, ?_⟩
  intro hall
  rcases hall _ hx with ⟨hown, -⟩ | ⟨version, hsince, hle, hvalue⟩
  · cases hown
  · obtain rfl : version = 1 := by
      rw [hv] at hle
      exact le_antisymm hle hsince
    rw [hrow] at hvalue
    cases hvalue

end Garant
