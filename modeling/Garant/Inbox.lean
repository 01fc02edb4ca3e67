import Garant.Accounts
/-!
# The webhook inbox

Both webhook endpoints take a delivery through the same inbox: they acquire the
event's row, commit that it is being processed, run the handler, and commit what
it did together with the row's new status. A delivery may stop at any await, and
a row left processing may be taken over after ten minutes.

`inbox_exact`: in every run in which no delivery goes on after its ten minutes,
one delivery at a time works on an event, its follow-up work is queued once, with
the result that its row stores, and every answer but "still processing" is
that result.
-/
open Transactions

namespace Garant

/-! ## Rows -/

/-- Provider and event id: the table has one row for each. -/
abbrev EventKey := WalletDepositProvider × String

/-- A row of the inbox as the endpoints read and write it. `R` are the JSON
objects that handlers return. -/
structure InboxEvent (R : Type) where
  status : WebhookStatus
  attempts : ℕ
  result_json : Option R
  error : Option String
  created_at : Time
  processed_at : Option Time
deriving DecidableEq

/-- `ProviderWebhookOutbox`. -/
structure OutboxRow (R : Type) where
  webhook_event : EventKey
  kind : String
  payload_json : R
  status : String
deriving DecidableEq

/-- What a delivery is answered with. -/
inductive InboxReply (R : Type)
  /-- `ok` and the result, with `duplicate` if it is an earlier one. -/
  | result (duplicate : Bool) (result : R)
  /-- `ok`, `duplicate` and the status. -/
  | status (status : WebhookStatus)
  /-- The handler's exception. -/
  | raised
deriving DecidableEq

/-- The inbox, with the answers given so far; the code does not keep those. -/
structure InboxStore (R : Type) where
  now : Time
  events : EventKey → Option (InboxEvent R)
  outbox : List (OutboxRow R)
  answers : List (EventKey × InboxReply R)

/-- What there is to do for an event. -/
inductive InboxWork (R : Type)
  /-- Of no known kind: the result says so. -/
  | ignored (result : R)
  /-- For a handler, which returns a result or raises. -/
  | handled (outcome : Except String R)

structure InboxDelivery (R : Type) where
  key : EventKey
  work : InboxWork R

/-! ## The endpoints -/

def _WEBHOOK_PROCESSING_RETRY_AFTER : Time := seconds 600

section
variable {R : Type}

/-- `_webhook_processing_is_fresh`. -/
def webhookProcessingIsFresh (now : Time) (event : InboxEvent R) : Bool :=
  now - event.processed_at.getD event.created_at < _WEBHOOK_PROCESSING_RETRY_AFTER

/-- `mark_webhook_event`. -/
def markWebhookEvent (event : InboxEvent R) (status : WebhookStatus) (result : R) (error : Option String) (now : Time) :
    InboxEvent R :=
  { event with
    status
    result_json := some result
    error := (error.filter (· ≠ "")).map fun e => String.ofList (e.toList.take 2000)
    processed_at := some now }

/-- The answer to a duplicate of an event that is done. -/
def cachedReply (event : InboxEvent R) : InboxReply R :=
  match event.result_json with
  | some result => .result true result
  | none => .status event.status

/-- The row a delivery claims: its own, or the one `acquire_webhook_event` found. -/
def claimedEvent (found : Option (InboxEvent R)) (created now : Time) : InboxEvent R :=
  match found with
  | none => ⟨.processing, 1, none, none, created, some now⟩
  | some event => { event with status := .processing, attempts := event.attempts + 1, processed_at := some now }

/-- Where a delivery is. -/
inductive InboxPc (R : Type)
  | arrived (d : InboxDelivery R)
  /-- `acquire_webhook_event` has the row to itself. -/
  | acquired (d : InboxDelivery R)
  /-- A duplicate to be answered from the row. -/
  | repeated (d : InboxDelivery R) (event : InboxEvent R) (reply : InboxReply R)
  | claiming (d : InboxDelivery R) (found : Option (InboxEvent R)) (created : Time)
  | claimed (d : InboxDelivery R) (found : Option (InboxEvent R)) (created now : Time)
  /-- In the handler, with the row as committed at `since`. -/
  | handling (d : InboxDelivery R) (since : Time) (event : InboxEvent R)
  /-- `_mark_webhook_failed`, rolled back. -/
  | failing (d : InboxDelivery R) (since : Time) (exc : String)
  /-- About to write the row, and what is queued with it. -/
  | marking (d : InboxDelivery R) (since : Time) (seen new : InboxEvent R) (queued : Option R) (reply : InboxReply R)
  | writing (d : InboxDelivery R) (since : Time) (seen new : InboxEvent R) (queued : Option R) (reply : InboxReply R)
  | ended

/-- The event a delivery works on and since when. -/
def InboxPc.lease : InboxPc R → Option (EventKey × Time)
  | .handling d since _ | .failing d since _ | .marking d since _ _ _ _ | .writing d since _ _ _ _ => some (d.key, since)
  | _ => none

def InboxStore.answer (s : InboxStore R) (key : EventKey) (reply : InboxReply R) : InboxStore R :=
  { s with answers := s.answers ++ [(key, reply)] }

/-- The row of `enqueue_webhook_outbox`. -/
def outboxRow (key : EventKey) (payload : R) : OutboxRow R := ⟨key, "deposit_reconcile", payload, "ready"⟩

def InboxStore.enqueue (s : InboxStore R) (key : EventKey) (queued : Option R) : InboxStore R :=
  { s with outbox := s.outbox ++ queued.toList.map (outboxRow key) }

def InboxStore.put (s : InboxStore R) (key : EventKey) (event : InboxEvent R) : InboxStore R :=
  { s with events := Function.update s.events key (some event) }

variable [DecidableEq R]

/-- The `UPDATE` of an event loaded as `seen`, over the committed `cur`. -/
def InboxEvent.flush (seen new cur : InboxEvent R) : InboxEvent R where
  status := column seen.status new.status cur.status
  attempts := column seen.attempts new.attempts cur.attempts
  result_json := column seen.result_json new.result_json cur.result_json
  error := column seen.error new.error cur.error
  created_at := cur.created_at
  processed_at := column seen.processed_at new.processed_at cur.processed_at

def InboxStore.flush (s : InboxStore R) (key : EventKey) (seen new : InboxEvent R) : InboxStore R :=
  match s.events key with
  | none => s
  | some cur => s.put key (seen.flush new cur)

/-- The row a delivery found, or none, gives way to `new`. -/
def InboxStore.save (s : InboxStore R) (key : EventKey) (found : Option (InboxEvent R)) (new : InboxEvent R) :
    InboxStore R :=
  match found with
  | none => s.put key new
  | some seen => s.flush key seen new

variable (failure : R)

/-- The next statement of `cryptobot_webhook` and `crystalpay_webhook`; `failure`
is the result that `_mark_webhook_failed` stores. -/
def inboxCode : InboxPc R → Move (InboxStore R) EventKey (InboxPc R)
  -- the INSERT waits for an insert of the same event that is not committed, the SELECT for the row's lock
  | .arrived d => .lock d.key (.acquired d)
  | .acquired d => .read fun s =>
    match s.events d.key with
    | none => .claiming d none s.now
    | some event =>
      if event.status = .processed ∨ event.status = .ignored then .repeated d event (cachedReply event)
      else if event.status = .processing ∧ webhookProcessingIsFresh s.now event then
        .repeated d event (.status event.status)
      else .claiming d (some event) s.now
  | .repeated d event reply =>
    .commit (fun s => (s.flush d.key event { event with attempts := event.attempts + 1 }).answer d.key reply)
      fun _ => .ended
  | .claiming d found created => .read fun s => .claimed d found created s.now
  | .claimed d found created now =>
    .commit (fun s => s.save d.key found (claimedEvent found created now)) fun _ =>
      .handling d now (claimedEvent found created now)
  | .handling d since event => .read fun s =>
    match d.work with
    | .ignored result =>
      .marking d since event (markWebhookEvent event .ignored result none s.now) none (.result false result)
    | .handled (.ok result) =>
      .marking d since event (markWebhookEvent event .processed result none s.now) (some result) (.result false result)
    | .handled (.error exc) => .failing d since exc
  -- the source looks the row up by `event.id`, which the rollback has expired: the lookup raises and the mark
  -- is never written. The run is then that of a session that stops here
  | .failing d since exc => .read fun s =>
    match s.events d.key with
    | none => .ended
    | some fresh => .marking d since fresh (markWebhookEvent fresh .failed failure (some exc) s.now) none .raised
  | .marking d since seen new queued reply => .lock d.key (.writing d since seen new queued reply)
  | .writing d _ seen new queued reply =>
    .commit (fun s => ((s.flush d.key seen new).enqueue d.key queued).answer d.key reply) fun _ => .ended
  | .ended => .done

/-- Nothing else writes the inbox; the clock goes on. -/
def Ticks (s t : InboxStore R) : Prop := ∃ now, s.now ≤ now ∧ t = { s with now }

abbrev InboxSys (R : Type) := Transactions.Sys (InboxStore R) EventKey (InboxPc R)
abbrev InboxStep := Step (inboxCode failure) InboxPc.arrived Ticks

/-- A delivery moves on only within its ten minutes. -/
def WithinLease : Event (InboxDelivery R) → InboxSys R → Prop
  | .move i, s => ∀ x key since, s.sessions.row i = some x → x.pc.lease = some (key, since) →
      s.store.now < since + _WEBHOOK_PROCESSING_RETRY_AFTER
  | _, _ => True

end

/-! ## What holds of the store -/

section
variable {R : Type}

/-- Done with: a delivery is answered from the row. -/
def InboxEvent.Settled (event : InboxEvent R) : Prop := event.status = .processed ∨ event.status = .ignored

/-- The result whose follow-up work is due. -/
def InboxEvent.due (event : InboxEvent R) : Option R := if event.status = .processed then event.result_json else none

/-- What an answer says of the event is in the row. -/
def InboxStore.Backs (s : InboxStore R) (key : EventKey) : InboxReply R → Prop
  | .result _ result => ∃ event, s.events key = some event ∧ event.Settled ∧ event.result_json = some result
  | .status status => status = .processing
  | .raised => True

structure InboxStore.Exact (s : InboxStore R) : Prop where
  outbox : ∀ key,
    s.outbox.filter (·.webhook_event = key) = ((s.events key).bind InboxEvent.due).toList.map (outboxRow key)
  answers : ∀ key reply, (key, reply) ∈ s.answers → s.Backs key reply
  stored : ∀ key event, s.events key = some event → event.Settled → ∃ result, event.result_json = some result

/-- The ten minutes are over. -/
def InboxStore.Overdue (s : InboxStore R) (since : Time) : Prop := since + _WEBHOOK_PROCESSING_RETRY_AFTER ≤ s.now

/-- One delivery at a time works on an event, and what is stored is right. -/
structure InboxExact (t : InboxSys R) : Prop where
  store : t.store.Exact
  alone : ∀ i j x y key a b, i ≠ j → t.sessions.row i = some x → t.sessions.row j = some y →
    x.pc.lease = some (key, a) → y.pc.lease = some (key, b) → t.store.Overdue a ∨ t.store.Overdue b

variable {s u : InboxStore R} {key k : EventKey} {event cur : InboxEvent R} {queued : Option R} {reply : InboxReply R}

theorem InboxStore.Exact.answer (h : s.Exact) (hb : s.Backs key reply) : (s.answer key reply).Exact where
  outbox := h.outbox
  stored := h.stored
  answers k r hr := by
    rcases List.mem_append.1 hr with hr | hr
    · exact h.answers k r hr
    · cases List.mem_singleton.1 hr
      exact hb

theorem filter_outboxRow : (queued.toList.map (outboxRow k)).filter (·.webhook_event = key) =
    if key = k then queued.toList.map (outboxRow k) else [] := by
  cases queued with
  | none => simp
  | some payload =>
    show List.filter _ [outboxRow k payload] = _
    rw [List.filter_singleton]
    by_cases hk : key = k <;> simp [outboxRow, hk, eq_comm]

/-- A row may change where a settled one keeps its status and result; what falls due is queued. -/
theorem InboxStore.Exact.put (h : s.Exact)
    (hold : ∀ cur, s.events key = some cur → cur.Settled →
      event.status = cur.status ∧ event.result_json = cur.result_json)
    (hnew : event.Settled → ∃ result, event.result_json = some result)
    (hdue : event.due.toList = ((s.events key).bind InboxEvent.due).toList ++ queued.toList) :
    ((s.put key event).enqueue key queued).Exact where
  outbox k := by
    show (s.outbox ++ _).filter _ = ((Function.update s.events key (some event) k).bind InboxEvent.due).toList.map _
    rw [List.filter_append, h.outbox k, filter_outboxRow, Function.update_apply]
    split
    · subst k
      rw [Option.bind_some, hdue, List.map_append]
    · rw [List.append_nil]
  answers k r hr := by
    have hb := h.answers k r hr
    cases r with
    | status => exact hb
    | raised => trivial
    | result duplicate result =>
      obtain ⟨cur, hcur, hs, hres⟩ := hb
      show ∃ e, Function.update s.events key (some event) k = some e ∧ _
      rw [Function.update_apply]
      split
      · subst k
        obtain ⟨hstatus, hresult⟩ := hold cur hcur hs
        exact ⟨event, rfl, by rwa [InboxEvent.Settled, hstatus], hresult.trans hres⟩
      · exact ⟨cur, hcur, hs, hres⟩
  stored k e he := by
    change Function.update s.events key (some event) k = some e at he
    rw [Function.update_apply] at he
    split at he
    · cases he
      exact hnew
    · exact h.stored k e he

theorem InboxStore.Exact.put_unsettled (h : s.Exact) (hold : ∀ cur, s.events key = some cur → ¬ cur.Settled)
    (hnew : event.Settled → ∃ result, event.result_json = some result) (hq : event.due = queued) :
    ((s.put key event).enqueue key queued).Exact := by
  refine h.put (fun cur hcur hs => absurd hs (hold cur hcur)) hnew ?_
  have hnone : (s.events key).bind InboxEvent.due = none := by
    rw [Option.bind_eq_none_iff]
    exact fun cur hcur => if_neg fun hp => hold cur hcur (.inl hp)
  rw [hnone, hq, Option.toList_none, List.nil_append]

theorem InboxStore.enqueue_none : s.enqueue key none = s := by
  show { s with outbox := s.outbox ++ [] } = s
  rw [List.append_nil]

/-! ## What a delivery knows -/

/-- The row is as the delivery committed it, repeated deliveries aside, or its ten minutes are over. -/
def InboxStore.Leased (s : InboxStore R) (key : EventKey) (since : Time) (event : InboxEvent R) : Prop :=
  s.Overdue since ∨ ∃ cur, s.events key = some cur ∧ cur.status = .processing ∧ cur.processed_at = some since ∧
    event.status = .processing ∧ cur.result_json = event.result_json

/-- What `acquire_webhook_event` found is not done with and not being processed. -/
def Claimable (now : Time) (found : Option (InboxEvent R)) : Prop :=
  ∀ event, found = some event → ¬ event.Settled ∧
    (event.status = .processing → webhookProcessingIsFresh now event = false)

/-- What a handler's end writes, queues and answers. -/
def Marks (new : InboxEvent R) (queued : Option R) (reply : InboxReply R) : Prop :=
  ∃ result, new.result_json = some result ∧
    ((new.status = .processed ∧ queued = some result ∧ reply = .result false result) ∨
      (new.status = .ignored ∧ queued = none ∧ reply = .result false result) ∨
      (new.status = .failed ∧ queued = none ∧ reply = .raised))

/-- What holds of a delivery that has these rows locked. -/
def InboxPc.Sound (s : InboxStore R) (held : List EventKey) : InboxPc R → Prop
  | .arrived _ | .ended => True
  | .acquired d => d.key ∈ held
  | .repeated d event reply => d.key ∈ held ∧ s.events d.key = some event ∧ s.Backs d.key reply
  | .claiming d found _ => d.key ∈ held ∧ s.events d.key = found ∧ Claimable s.now found
  | .claimed d found _ now => d.key ∈ held ∧ s.events d.key = found ∧ Claimable now found ∧ now ≤ s.now
  | .handling d since event => s.Leased d.key since event
  | .failing d since _ => ∃ event, s.Leased d.key since event
  | .marking d since seen new queued reply => s.Leased d.key since seen ∧ Marks new queued reply
  | .writing d since seen new queued reply => d.key ∈ held ∧ s.Leased d.key since seen ∧ Marks new queued reply

/-- The rows a lease looks at are the same. -/
def SameLease (s u : InboxStore R) (key : EventKey) : Prop :=
  ∀ cur, s.events key = some cur → ∃ cur', u.events key = some cur' ∧ cur'.status = cur.status ∧
    cur'.processed_at = cur.processed_at ∧ cur'.result_json = cur.result_json

variable {pc : InboxPc R} {held : List EventKey} {found : Option (InboxEvent R)} {now since : Time}

theorem SameLease.of_eq (h : u.events key = s.events key) : SameLease s u key :=
  fun cur hcur => ⟨cur, h.trans hcur, rfl, rfl, rfl⟩

theorem InboxStore.Overdue.mono (h : s.Overdue since) (hnow : s.now ≤ u.now) : u.Overdue since := le_trans h hnow

theorem InboxStore.Leased.mono (h : s.Leased key since event) (hnow : s.now ≤ u.now)
    (hrow : u.Overdue since ∨ SameLease s u key) : u.Leased key since event := by
  rcases h with h | ⟨cur, hcur, hstatus, hsince, hevent, hresult⟩
  · exact .inl (h.mono hnow)
  · rcases hrow with hover | hsame
    · exact .inl hover
    · obtain ⟨cur', hcur', hs, hp, hr⟩ := hsame cur hcur
      exact .inr ⟨cur', hcur', hs.trans hstatus, hp.trans hsince, hevent, hr.trans hresult⟩

theorem Claimable.mono (h : Claimable now found) (hnow : now ≤ u.now) : Claimable u.now found := by
  intro event he
  obtain ⟨hs, hf⟩ := h event he
  refine ⟨hs, fun hp => ?_⟩
  have := hf hp
  simp only [webhookProcessingIsFresh, decide_eq_false_iff_not, not_lt] at this ⊢
  exact this.trans (sub_le_sub_right hnow _)

/-- Whoever may claim the row finds that the delivery before it is over its ten minutes. -/
theorem Claimable.overdue (h : Claimable now found) (hfound : s.events key = found) (hnow : now ≤ s.now)
    (hl : s.Leased key since event) : s.Overdue since := by
  rcases hl with hl | ⟨cur, hcur, hstatus, hsince, -, -⟩
  · exact hl
  · have hfresh := (h cur (hfound.symm.trans hcur)).2 hstatus
    simp only [webhookProcessingIsFresh, decide_eq_false_iff_not, not_lt, hsince, Option.getD_some] at hfresh
    show since + _ ≤ s.now
    linarith

theorem InboxPc.Sound.leased (h : pc.Sound s held) (hl : pc.lease = some (key, since)) :
    ∃ event, s.Leased key since event := by
  cases pc with
  | handling d a event =>
    cases hl
    exact ⟨event, h⟩
  | failing d a exc =>
    cases hl
    exact h
  | marking d a seen new queued reply =>
    cases hl
    exact ⟨seen, h.1⟩
  | writing d a seen new queued reply =>
    cases hl
    exact ⟨seen, h.2.1⟩
  | _ => cases hl

/-- A delivery keeps what it knows while its locked rows and what its lease looks at stay as they are. -/
theorem InboxPc.Sound.mono (h : pc.Sound s held) (hnow : s.now ≤ u.now)
    (hheld : ∀ k ∈ held, u.events k = s.events k)
    (hlease : ∀ k a, pc.lease = some (k, a) → u.Overdue a ∨ SameLease s u k) : pc.Sound u held := by
  cases pc with
  | arrived => trivial
  | ended => trivial
  | acquired d => exact h
  | repeated d event reply =>
    obtain ⟨hk, he, hb⟩ := h
    refine ⟨hk, (hheld _ hk).trans he, ?_⟩
    cases reply with
    | status => exact hb
    | raised => trivial
    | result duplicate result =>
      obtain ⟨cur, hcur, hrest⟩ := hb
      exact ⟨cur, (hheld _ hk).trans hcur, hrest⟩
  | claiming d found created => exact ⟨h.1, (hheld _ h.1).trans h.2.1, h.2.2.mono hnow⟩
  | claimed d found created now => exact ⟨h.1, (hheld _ h.1).trans h.2.1, h.2.2.1, h.2.2.2.trans hnow⟩
  | handling d since event => exact InboxStore.Leased.mono h hnow (hlease _ _ rfl)
  | failing d since exc =>
    obtain ⟨event, he⟩ := h
    exact ⟨event, he.mono hnow (hlease _ _ rfl)⟩
  | marking d since seen new queued reply => exact ⟨h.1.mono hnow (hlease _ _ rfl), h.2⟩
  | writing d since seen new queued reply => exact ⟨h.1, h.2.1.mono hnow (hlease _ _ rfl), h.2.2⟩

/-! ## What a move does -/

section
variable [DecidableEq R] {failure : R} {s : InboxSys R} {i : ℕ} {x y : Session EventKey (InboxPc R)} {d : InboxDelivery R}
  {seen new : InboxEvent R}

/-- A commit of a row that the session has locked. -/
structure Wrote (s : InboxSys R) (x y : Session EventKey (InboxPc R)) (u : InboxStore R) (key : EventKey) : Prop where
  locked : key ∈ x.held
  released : y.held = []
  now : u.now = s.store.now
  others : ∀ k, k ≠ key → u.events k = s.store.events k

omit [DecidableEq R] in
theorem Wrote.of_put {u : InboxStore R} (hk : key ∈ x.held) (hy : y.held = []) (hnow : u.now = s.store.now)
    (hu : u.events = Function.update s.store.events key (some event)) : Wrote s x y u key :=
  ⟨hk, hy, hnow, fun k hne => by rw [hu, Function.update_of_ne hne]⟩

/-- What a move from `x` to `y` does to the rows and to leases. -/
inductive InboxEffect (s : InboxSys R) (i : ℕ) (x y : Session EventKey (InboxPc R)) (u : InboxStore R) : Prop
  | quiet (store : u = s.store) (lease : ∀ l, y.pc.lease = some l → x.pc.lease = some l)
  | counts {key : EventKey} (wrote : Wrote s x y u key) (lease : y.pc.lease = none) (same : SameLease s.store u key)
  | claims {key : EventKey} {since : Time} (wrote : Wrote s x y u key) (lease : y.pc.lease = some (key, since))
      (elapsed : ∀ a event, s.store.Leased key a event → s.store.Overdue a)
  | settles {key : EventKey} {since : Time} (wrote : Wrote s x y u key) (before : x.pc.lease = some (key, since))
      (lease : y.pc.lease = none)

theorem InboxStore.flush_eq {s : InboxStore R} (h : s.events key = some cur) :
    s.flush key seen new = s.put key (seen.flush new cur) := by
  unfold InboxStore.flush
  rw [h]

/-- Nothing is lost where the row is still as it was loaded. -/
theorem InboxStore.flush_fresh {s : InboxStore R} (h : s.events key = some seen) (hc : new.created_at = seen.created_at) :
    s.flush key seen new = s.put key new := by
  have hrow : seen.flush new seen = new := by simp only [InboxEvent.flush, column_fresh, ← hc]
  rw [InboxStore.flush_eq h, hrow]

/-- A delivery that has found its row knows what to do with it. -/
theorem acquired_sound (hI : s.store.Exact) (hk : d.key ∈ x.held) (hc : x.pc = .acquired d)
    (hm : Moves (inboxCode failure) s i x y u) : u = s.store ∧ y.pc.Sound u y.held ∧ y.pc.lease = none := by
  obtain ⟨rfl, rfl⟩ := hm.of_read (by rw [hc]; rfl)
  refine ⟨rfl, ?_⟩
  dsimp only
  split
  · next hnone => exact ⟨⟨hk, hnone, by rintro e ⟨⟩⟩, rfl⟩
  · next event he =>
    split
    · next hs =>
      refine ⟨⟨hk, he, ?_⟩, rfl⟩
      obtain ⟨result, hr⟩ := hI.stored _ _ he hs
      rw [cachedReply, hr]
      exact ⟨event, he, hs, hr⟩
    · next hs =>
      split
      · next hp => exact ⟨⟨hk, he, hp.1⟩, rfl⟩
      · next hp =>
        refine ⟨⟨hk, he, ?_⟩, rfl⟩
        rintro e ⟨⟩
        exact ⟨hs, fun hstatus => Bool.eq_false_iff.2 fun hf => hp ⟨hstatus, hf⟩⟩

/-- A repeated delivery counts itself and answers from the row. -/
theorem repeated_effect {reply : InboxReply R} (hI : s.store.Exact) (hc : x.pc = .repeated d event reply)
    (hL : x.pc.Sound s.store x.held) (hm : Moves (inboxCode failure) s i x y u) :
    u.Exact ∧ y.pc.Sound u y.held ∧ InboxEffect s i x y u := by
  rw [hc] at hL
  obtain ⟨hk, he, hb⟩ := hL
  obtain ⟨rfl, rfl⟩ := hm.of_commit (by rw [hc]; rfl)
  have hflush : s.store.flush d.key event { event with attempts := event.attempts + 1 } =
      s.store.put d.key { event with attempts := event.attempts + 1 } := InboxStore.flush_fresh he rfl
  rw [hflush]
  refine ⟨?_, trivial, .counts (.of_put hk rfl rfl rfl) rfl ?_⟩
  · have hput : (((s.store.answer d.key reply).put d.key { event with attempts := event.attempts + 1 }).enqueue
        d.key none).Exact := (hI.answer hb).put
      (fun cur hcur _ => by cases he.symm.trans hcur; exact ⟨rfl, rfl⟩) (fun hs => hI.stored d.key event he hs) (by
        show _ = ((s.store.events d.key).bind _).toList ++ _
        rw [he, Option.toList_none, List.append_nil]
        rfl)
    rwa [InboxStore.enqueue_none] at hput
  · intro cur hcur
    cases he.symm.trans hcur
    exact ⟨_, Function.update_self .., rfl, rfl, rfl⟩

/-- A claim is a new row, or a row nobody is within the ten minutes of. -/
theorem claimed_effect {created now : Time} (hI : s.store.Exact) (hc : x.pc = .claimed d found created now)
    (hL : x.pc.Sound s.store x.held) (hm : Moves (inboxCode failure) s i x y u) :
    u.Exact ∧ y.pc.Sound u y.held ∧ InboxEffect s i x y u := by
  rw [hc] at hL
  obtain ⟨hk, he, hclaim, hnow⟩ := hL
  obtain ⟨rfl, rfl⟩ := hm.of_commit (by rw [hc]; rfl)
  have hsave : s.store.save d.key found (claimedEvent found created now) =
      s.store.put d.key (claimedEvent found created now) := by
    cases found with
    | none => rfl
    | some event => exact InboxStore.flush_fresh he rfl
  have hstatus : (claimedEvent found created now).status = .processing := by cases found <;> rfl
  have hsince : (claimedEvent found created now).processed_at = some now := by cases found <;> rfl
  rw [hsave]
  refine ⟨?_, ?_, .claims (.of_put hk rfl rfl rfl) rfl fun a event hl => hclaim.overdue he hnow hl⟩
  · have hput : ((s.store.put d.key (claimedEvent found created now)).enqueue d.key none).Exact := hI.put_unsettled
      (fun cur hcur => (hclaim cur (he.symm.trans hcur)).1)
      (by rintro (h | h) <;> rw [hstatus] at h <;> cases h) (by rw [InboxEvent.due, hstatus]; rfl)
    rwa [InboxStore.enqueue_none] at hput
  · exact .inr ⟨_, Function.update_self .., hstatus, hsince, hstatus, rfl⟩

/-- Within its ten minutes a delivery writes over the row it committed. -/
theorem writing_effect {queued : Option R} {reply : InboxReply R} (hI : s.store.Exact)
    (hc : x.pc = .writing d since seen new queued reply) (hL : x.pc.Sound s.store x.held)
    (hlive : ¬ s.store.Overdue since) (hm : Moves (inboxCode failure) s i x y u) :
    u.Exact ∧ y.pc.Sound u y.held ∧ InboxEffect s i x y u := by
  rw [hc] at hL
  obtain ⟨hk, hl, result, hresult, hkind⟩ := hL
  obtain ⟨cur, hcur, hstatus, -, hseen, hres⟩ := hl.resolve_left hlive
  obtain ⟨rfl, rfl⟩ := hm.of_commit (by rw [hc]; rfl)
  rw [InboxStore.flush_eq hcur]
  -- the status differs from the one loaded, so it is written; the result is there already or written
  have hs : (seen.flush new cur).status = new.status := by
    refine column_changed ?_
    rw [hseen]
    rcases hkind with h | h | h <;> rw [h.1] <;> decide
  have hr : (seen.flush new cur).result_json = some result := by
    show column _ _ _ = _
    unfold column
    split
    · next heq => rw [hres, ← heq, hresult]
    · exact hresult
  have hunsettled : ∀ e, s.store.events d.key = some e → ¬ e.Settled := by
    rintro e he (h | h) <;> cases hcur.symm.trans he <;> rw [hstatus] at h <;> cases h
  have hdue : (seen.flush new cur).due = queued := by
    unfold InboxEvent.due
    rw [hs, hr]
    rcases hkind with ⟨h, rfl, -⟩ | ⟨h, rfl, -⟩ | ⟨h, rfl, -⟩ <;> rw [h] <;> rfl
  have hput : ((s.store.put d.key (seen.flush new cur)).enqueue d.key queued).Exact :=
    hI.put_unsettled hunsettled (fun _ => ⟨result, hr⟩) hdue
  have hbefore : x.pc.lease = some (d.key, since) := by
    rw [hc]
    rfl
  refine ⟨hput.answer ?_, trivial, .settles (.of_put hk rfl rfl rfl) hbefore rfl⟩
  rcases hkind with ⟨h, -, rfl⟩ | ⟨h, -, rfl⟩ | ⟨-, -, rfl⟩
  · exact ⟨_, Function.update_self .., .inl (hs.trans h), hr⟩
  · exact ⟨_, Function.update_self .., .inr (hs.trans h), hr⟩
  · trivial

/-- One statement: the store stays exact, and the delivery knows what its next statement needs. -/
theorem inbox_effect (hI : s.store.Exact) (hL : x.pc.Sound s.store x.held)
    (hlive : ∀ key since, x.pc.lease = some (key, since) → ¬ s.store.Overdue since)
    (hm : Moves (inboxCode failure) s i x y u) : u.Exact ∧ y.pc.Sound u y.held ∧ InboxEffect s i x y u := by
  cases hc : x.pc with
  | arrived d =>
    obtain ⟨rfl, rfl⟩ := hm.of_lock (by rw [hc]; rfl)
    exact ⟨hI, List.mem_cons_self, .quiet rfl fun l hl => by cases hl⟩
  | acquired d =>
    rw [hc] at hL
    obtain ⟨rfl, hy, hnone⟩ := acquired_sound hI hL hc hm
    exact ⟨hI, hy, .quiet rfl fun l hl => by rw [hnone] at hl; cases hl⟩
  | repeated d event reply => exact repeated_effect hI hc hL hm
  | claiming d found created =>
    rw [hc] at hL
    obtain ⟨rfl, rfl⟩ := hm.of_read (by rw [hc]; rfl)
    exact ⟨hI, ⟨hL.1, hL.2.1, hL.2.2, le_rfl⟩, .quiet rfl fun l hl => by cases hl⟩
  | claimed d found created now => exact claimed_effect hI hc hL hm
  | handling d since event =>
    rw [hc] at hL
    obtain ⟨rfl, rfl⟩ := hm.of_read (by rw [hc]; rfl)
    refine ⟨hI, ?_, .quiet rfl ?_⟩ <;> cases hw : d.work with
    | ignored result =>
      first
      | exact ⟨hL, result, rfl, .inr (.inl ⟨rfl, rfl, rfl⟩)⟩
      | exact fun l hl => by rw [hc]; exact hl
    | handled outcome =>
      cases outcome with
      | ok result =>
        first
        | exact ⟨hL, result, rfl, .inl ⟨rfl, rfl, rfl⟩⟩
        | exact fun l hl => by rw [hc]; exact hl
      | error exc =>
        first
        | exact ⟨event, hL⟩
        | exact fun l hl => by rw [hc]; exact hl
  | failing d since exc =>
    have hlive := hlive d.key since (by rw [hc]; rfl)
    rw [hc] at hL
    obtain ⟨event, hl⟩ := hL
    obtain ⟨cur, hcur, hstatus, hsince, -, -⟩ := hl.resolve_left hlive
    obtain ⟨rfl, rfl⟩ := hm.of_read (by rw [hc]; rfl)
    dsimp only
    rw [hcur]
    exact ⟨hI, ⟨.inr ⟨cur, hcur, hstatus, hsince, hstatus, rfl⟩, failure, rfl, .inr (.inr ⟨rfl, rfl, rfl⟩)⟩,
      .quiet rfl fun l hl => by rw [hc]; exact hl⟩
  | marking d since seen new queued reply =>
    rw [hc] at hL
    obtain ⟨rfl, rfl⟩ := hm.of_lock (by rw [hc]; rfl)
    exact ⟨hI, ⟨List.mem_cons_self, hL⟩, .quiet rfl fun l hl => by rw [hc]; exact hl⟩
  | writing d since seen new queued reply => exact writing_effect hI hc hL (hlive d.key since (by rw [hc]; rfl)) hm
  | ended => exact (hm.of_done (by rw [hc]; rfl)).elim

/-! ## Runs -/

/-- Two deliveries have no row locked both, and one is over its ten minutes if they work on one event. -/
def Apart (s : InboxStore R) (x y : Session EventKey (InboxPc R)) : Prop :=
  (∀ r ∈ x.held, r ∉ y.held) ∧
    ∀ key a b, x.pc.lease = some (key, a) → y.pc.lease = some (key, b) → s.Overdue a ∨ s.Overdue b

omit [DecidableEq R] in
theorem Apart.symm {s : InboxStore R} (h : Apart s x y) : Apart s y x :=
  ⟨fun r hy hx => h.1 r hx hy, fun key a b ha hb => (h.2 key b a hb ha).symm⟩

omit [DecidableEq R] in
theorem Apart.mono {s : InboxStore R} (h : Apart s x y) (hnow : s.now ≤ u.now) : Apart u x y :=
  ⟨h.1, fun key a b ha hb => (h.2 key a b ha hb).imp (·.mono hnow) (·.mono hnow)⟩

omit [DecidableEq R] in
/-- A move of one delivery leaves each other one what it knows, and the two apart. -/
theorem InboxEffect.others {z : Session EventKey (InboxPc R)} (h : InboxEffect s i x y u)
    (hlive : ∀ key since, x.pc.lease = some (key, since) → ¬ s.store.Overdue since)
    (hz : z.pc.Sound s.store z.held) (hxz : Apart s.store x z) (hheld : ∀ r ∈ y.held, r ∉ z.held) :
    z.pc.Sound u z.held ∧ Apart u y z := by
  -- a row written is locked by the one that moved, so not by `z`
  have hframe : ∀ {key}, Wrote s x y u key → ∀ k ∈ z.held, u.events k = s.store.events k := by
    intro key hw k hk
    exact hw.others k fun he => hxz.1 key hw.locked (he ▸ hk)
  cases h with
  | quiet hu hlease =>
    subst hu
    exact ⟨hz, hheld, fun key a b ha hb => hxz.2 key a b (hlease _ ha) hb⟩
  | @counts key hw hnone hsame =>
    refine ⟨hz.mono hw.now.ge (hframe hw) fun k a _ => .inr ?_, hheld, fun k a b ha => (by rw [hnone] at ha; cases ha)⟩
    by_cases hk : k = key
    · exact hk ▸ hsame
    · exact .of_eq (hw.others k hk)
  | @claims key since hw hsome helapsed =>
    have hover : ∀ a, z.pc.lease = some (key, a) → u.Overdue a := by
      intro a ha
      obtain ⟨event, he⟩ := hz.leased ha
      exact (helapsed a event he).mono hw.now.ge
    refine ⟨hz.mono hw.now.ge (hframe hw) fun k a ha => ?_, hheld, fun k a b ha hb => ?_⟩
    · by_cases hk : k = key
      · exact .inl (hover a (hk ▸ ha))
      · exact .inr (.of_eq (hw.others k hk))
    · rw [hsome] at ha
      cases ha
      exact .inr (hover b hb)
  | @settles key since hw hbefore hnone =>
    refine ⟨hz.mono hw.now.ge (hframe hw) fun k a ha => ?_, hheld, fun k a b ha => by rw [hnone] at ha; cases ha⟩
    by_cases hk : k = key
    · subst hk
      exact .inl (((hxz.2 k since a hbefore ha).resolve_left (hlive k since hbefore)).mono hw.now.ge)
    · exact .inr (.of_eq (hw.others k hk))

omit [DecidableEq R] in
theorem InboxStore.Exact.ticks {s : InboxStore R} (h : s.Exact) (ht : Ticks s u) : u.Exact := by
  obtain ⟨now, -, rfl⟩ := ht
  exact ⟨h.outbox, h.answers, h.stored⟩

/-- The inbox before the first delivery. -/
def InboxStore.start (now : Time) : InboxStore R := ⟨now, fun _ => none, [], []⟩

/-- In every run in which no delivery goes on after its ten minutes, at most one
works on an event at a time, and every event's follow-up work and answers agree with its row. -/
theorem inbox_exact {now : Time} {t : InboxSys R} (h : Reach (InboxStep failure) WithinLease (.idle (.start now)) t) :
    InboxExact t := by
  have hstart : (InboxStore.start now : InboxStore R).Exact :=
    ⟨fun key => rfl, fun key reply hr => (by cases hr), fun key event he => (by cases he)⟩
  have hinv := outline_pairs (I := InboxStore.Exact) (L := fun s x => x.pc.Sound s x.held) (M := Apart) h hstart
    (fun u x y => Apart.symm) ?_ ?_ ?_
  · exact ⟨hinv.1, fun i j x y key a b hij hi hj => (hinv.2.2 i j x y hij hi hj).2 key a b⟩
  · exact fun d u _ => ⟨trivial, fun z _ => ⟨fun r hr => (by cases hr), fun key a b ha => (by cases ha)⟩⟩
  · intro s i x y u hI hL hothers hok hx hm
    have hlive : ∀ key since, x.pc.lease = some (key, since) → ¬ s.store.Overdue since :=
      fun key since hl => not_le.2 (hok x key since hx hl)
    obtain ⟨hu, hy, heff⟩ := inbox_effect hI hL hlive hm
    refine ⟨hu, hy, fun j z hj hz => ?_, fun z w _ _ hzw => ?_⟩
    · obtain ⟨hLz, hxz⟩ := hothers j z hj hz
      refine heff.others hlive hLz hxz fun r hr => ?_
      rcases hm.held r hr with hr | hfree
      · exact hxz.1 r hr
      · exact hfree j z hj hz
    · refine hzw.mono ?_
      cases heff with
      | quiet hu => exact hu ▸ le_rfl
      | counts hw | claims hw | settles hw => exact hw.now.ge
  · intro s u hI ht
    obtain ⟨now', hnow, rfl⟩ := id ht
    refine ⟨hI.ticks ht, fun z hz => ?_, fun z w hzw => hzw.mono hnow⟩
    exact hz.mono hnow (fun _ _ => rfl) fun k a _ => .inr (.of_eq rfl)

end

end

/-! ## An event delivered twice -/

def sampleWebhook : InboxDelivery String := ⟨(.cryptobot, "42"), .handled (.ok "credited")⟩

def sampleClaimed : InboxEvent String := claimedEvent none 0 0

def sampleProcessed : InboxEvent String := markWebhookEvent sampleClaimed .processed "credited" none 0

theorem sample_within : (0 : Time) < 0 + _WEBHOOK_PROCESSING_RETRY_AFTER := by decide

theorem sampleInbox_exact : ∃ t, Reach (InboxStep "failed") WithinLease (.idle (.start 0)) t ∧
    t.store.answers.map (·.2) = [.result false "credited", .result true "credited"] ∧ InboxExact t := by
  have h₀ : Reach (InboxStep "failed") WithinLease (.idle (.start 0)) (.idle (.start 0)) := .refl
  have h₁ := run_start h₀ sampleWebhook trivial
  have h₂ := run_lock h₁ 1 rfl rfl (Sys.freeFor_of_check (by decide)) (by rintro x key since ⟨⟩ ⟨⟩)
  have h₃ := run_read (p := .claiming sampleWebhook none 0) h₂ 1 rfl rfl rfl (by rintro x key since ⟨⟩ ⟨⟩)
  have h₄ := run_read (p := .claimed sampleWebhook none 0 0) h₃ 1 rfl rfl rfl (by rintro x key since ⟨⟩ ⟨⟩)
  have h₅ := run_commit (p := .handling sampleWebhook 0 sampleClaimed) h₄ 1 rfl rfl rfl (by rintro x key since ⟨⟩ ⟨⟩)
  have h₆ := run_read (p := .marking sampleWebhook 0 sampleClaimed sampleProcessed (some "credited")
    (.result false "credited")) h₅ 1 rfl rfl rfl (by rintro x key since ⟨⟩ ⟨⟩; exact sample_within)
  have h₇ := run_lock (r := sampleWebhook.key) (p := .writing sampleWebhook 0 sampleClaimed sampleProcessed
    (some "credited") (.result false "credited")) h₆ 1 rfl rfl (Sys.freeFor_of_check (by decide))
    (by rintro x key since ⟨⟩ ⟨⟩; exact sample_within)
  have h₈ := run_commit (p := .ended) h₇ 1 rfl rfl rfl (by rintro x key since ⟨⟩ ⟨⟩; exact sample_within)
  have h₉ := run_start h₈ sampleWebhook trivial
  have h₁₀ := run_lock (r := sampleWebhook.key) (p := .acquired sampleWebhook) h₉ 2 rfl rfl
    (Sys.freeFor_of_check (by decide)) (by rintro x key since ⟨⟩ ⟨⟩)
  have h₁₁ := run_read (p := .repeated sampleWebhook sampleProcessed (.result true "credited")) h₁₀ 2 rfl rfl rfl
    (by rintro x key since ⟨⟩ ⟨⟩)
  have h₁₂ := run_commit (p := .ended) h₁₁ 2 rfl rfl rfl (by rintro x key since ⟨⟩ ⟨⟩)
  exact ⟨_, h₁₂, by decide +kernel, inbox_exact h₁₂⟩

end Garant
