import Garant.Lib.Mailbox
import Garant.Lib.Runs
/-!
# The WebSocket fan-out

`ConnectionManager` from one await to the next: the two maps, the state of each
socket with its writer task, and the closes that are being awaited. `exec` is one
step of the event loop. `fanout_ok` is what holds after any number of steps: no
frame lost, reordered or sent twice, no wake-up lost, and two maps that agree.
-/

namespace Garant

/-- What the writer task of a socket awaits. -/
inductive WriterPc
  | notStarted
  | wake
  | sendText
  | close
  | done
deriving DecidableEq

/-- `_SocketState`; `cancelled` is a pending `writer_task.cancel()`. -/
structure SocketState extends Mailbox String where
  user_id : ℕ
  auth_date_epoch : Option ℤ
  wake : Bool := false
  writer : WriterPc := .notStarted
  closed : Bool := false
  cancelled : Bool := false
deriving DecidableEq

/-- A close that is awaited, and what its task goes on with. -/
inductive Closer
  | closeLocal (user_id : ℕ) (websocket : ℕ) (rest : List ℕ)
  | evict (websocket : ℕ) (rest : List ℕ)
deriving DecidableEq

/-- `ws_send_queue_size` and `ws_max_sockets_per_user`. -/
structure WsSettings where
  send_queue_size : ℕ
  max_sockets_per_user : ℤ

/-- The manager. `sockets` are the state objects ever made, by socket; `states` are the keys of `_states`. -/
structure Fanout where
  connections : ℕ → List ℕ
  states : List ℕ
  sockets : ℕ → Option SocketState
  closers : List Closer

/-- How an await of the writer ends. -/
inductive WriterResume
  | resumed
  | timeout
  | raised
  | cancelled
deriving DecidableEq

inductive WsEvent
  | connect (websocket : ℕ) (auth_date_epoch : Option ℤ)
  | sendLocal (user_id : ℕ) (payload : String)
  | writer (websocket : ℕ) (how : WriterResume)
  | disconnect (websocket : ℕ)
  | closeLocal (user_id : ℕ)
  | evictExpired (cutoff : ℤ)
  | closed (closer : ℕ) (raised : Bool)
deriving DecidableEq

/-! ## One socket -/

namespace SocketState

/-- `_enqueue`. -/
def enqueue (s : SocketState) (size : ℕ) (payload : String) : SocketState :=
  { s with toMailbox := s.toMailbox.push size payload, wake := true }

/-- `closed = True`, then `wake.set()`. -/
def shut (s : SocketState) : SocketState := { s with closed := true, wake := true }

/-- The writer up to its next await: the next frame, or back to `wake`, which an
empty queue leaves cleared. -/
def drain (s : SocketState) : SocketState :=
  if s.closed then { s with writer := .done }
  else match s.queue with
    | item :: rest => { s with toMailbox := s.toMailbox.pop item rest, writer := .sendText }
    | [] => { s with wake := false, writer := .wake }

/-- `_writer` from one await to the next, if the await can end so. -/
def resume (s : SocketState) (how : WriterResume) : Option SocketState :=
  match s.writer, how with
  | .notStarted, .resumed => some (if s.wake then drain { s with wake := false } else { s with writer := .wake })
  | .wake, .resumed => if s.wake then some (drain { s with wake := false }) else none
  | .sendText, .resumed => some s.drain
  | .sendText, .timeout => some { s with closed := true, writer := .close }
  | .sendText, .raised => some { s with closed := true, writer := .done }
  | .close, .resumed | .close, .raised => some { s with writer := .done }
  | .done, _ => none
  | _, .cancelled => if s.cancelled then some { s with writer := .done } else none
  | _, _ => none

end SocketState

/-! ## The manager -/

namespace Fanout
variable (cfg : WsSettings) (owner : ℕ → ℕ)

def setSocket (s : Fanout) (ws : ℕ) (f : SocketState → SocketState) : Fanout :=
  { s with sockets := Function.update s.sockets ws ((s.sockets ws).map f) }

/-- `connect` of a socket that `owner` says whose it is; a rejected one is only closed. -/
def connect (s : Fanout) (ws : ℕ) (auth_date_epoch : Option ℤ) : Fanout :=
  let existing := s.connections (owner ws)
  if cfg.max_sockets_per_user ≠ 0 ∧ cfg.max_sockets_per_user ≤ existing.length then s
  else
    { s with
      connections := Function.update s.connections (owner ws) (existing ++ [ws])
      states := s.states ++ [ws]
      sockets := Function.update s.sockets ws (some { user_id := owner ws, auth_date_epoch }) }

def disconnect (s : Fanout) (user_id ws : ℕ) : Fanout :=
  let conns := (s.connections user_id).erase ws
  let s' := { s with connections := Function.update s.connections user_id conns }
  if ws ∈ s.states then
    { s' with states := s.states.erase ws }.setSocket ws fun x =>
      { x.shut with cancelled := x.cancelled || x.writer ≠ WriterPc.done }
  else s'

/-- `_send_local`: the frame goes to each socket of the user that is not closed. -/
def sendLocal (s : Fanout) (user_id : ℕ) (payload : String) : Fanout :=
  (s.connections user_id).foldl (fun s ws =>
    if ws ∈ s.states then
      s.setSocket ws fun x => if x.closed then x else x.enqueue cfg.send_queue_size payload
    else s) s

/-- `_close_local` up to its next `close`. -/
def closeNext (s : Fanout) (user_id : ℕ) : List ℕ → Fanout
  | [] => s
  | ws :: rest =>
    let s' := if ws ∈ s.states then s.setSocket ws .shut else s
    { s' with closers := s'.closers ++ [.closeLocal user_id ws rest] }

/-- `_evict_expired_once` up to its next `close`. -/
def evictNext (s : Fanout) : List ℕ → Fanout
  | [] => s
  | ws :: rest =>
    let s' := s.setSocket ws .shut
    { s' with closers := s'.closers ++ [.evict ws rest] }

def expired (s : Fanout) (cutoff : ℤ) : List ℕ :=
  s.states.filter fun ws => (s.sockets ws).any fun x => x.auth_date_epoch.any (· < cutoff) && !x.closed

/-- A close has ended. One that raises what is not caught ends its task, but `finally` still disconnects. -/
def resumeCloser (s : Fanout) (c : Closer) (raised : Bool) : Fanout :=
  match c with
  | .closeLocal user_id ws rest => (s.disconnect user_id ws).closeNext user_id (if raised then [] else rest)
  | .evict _ rest => s.evictNext (if raised then [] else rest)

/-- One step of the event loop. A socket connects once, as its endpoint does. -/
def exec (s : Fanout) : WsEvent → Option Fanout
  | .connect ws auth_date_epoch => if s.sockets ws = none then some (s.connect cfg owner ws auth_date_epoch) else none
  | .sendLocal user_id payload => some (s.sendLocal cfg user_id payload)
  | .writer ws how =>
    ((s.sockets ws).bind (·.resume how)).map fun x => { s with sockets := Function.update s.sockets ws (some x) }
  | .disconnect ws => some (s.disconnect (owner ws) ws)
  | .closeLocal user_id => some (s.closeNext user_id (s.connections user_id))
  | .evictExpired cutoff => some (s.evictNext (s.expired cutoff))
  | .closed i raised =>
    (s.closers[i]?).map fun c => { s with closers := s.closers.eraseIdx i }.resumeCloser c raised

/-- Before the first connection. -/
def start : Fanout := ⟨fun _ => [], [], fun _ => none, []⟩

end Fanout

/-! ## What a socket keeps -/

namespace SocketState
variable {x y : SocketState} {size : ℕ} {payload : String} {how : WriterResume}

/-- Nothing lost in the queue, and a writer that is about to wait for `wake`, or
does, is woken when there is a frame. -/
structure Ok (x : SocketState) (size : ℕ) : Prop where
  mailbox : x.toMailbox.Ok size
  awake : x.writer = .wake ∨ x.writer = .notStarted → x.queue ≠ [] → x.wake = true

theorem Ok.enqueue (h : x.Ok size) : (x.enqueue size payload).Ok size := ⟨h.mailbox.push, fun _ _ => rfl⟩

theorem Ok.shut (h : x.Ok size) : x.shut.Ok size := ⟨h.mailbox, fun _ _ => rfl⟩

theorem ok_drain (h : x.toMailbox.Ok size) : x.drain.Ok size := by
  unfold drain
  split
  · exact ⟨h, by simp⟩
  · split
    · rename_i hq
      exact ⟨h.pop hq, by simp⟩
    · rename_i hq
      exact ⟨h, fun _ hne => absurd hq hne⟩

theorem drain_user_id : x.drain.user_id = x.user_id := by
  unfold drain
  split
  · rfl
  · split <;> rfl

/-- What an await of the writer may lead to: it drains the queue, starts to wait
with nothing to wake it, or is over. -/
theorem resume_cases (hr : x.resume how = some y) :
    (∃ z : SocketState, z.toMailbox = x.toMailbox ∧ z.user_id = x.user_id ∧ y = z.drain) ∨
      (x.writer = .notStarted ∧ x.wake = false ∧ y = { x with writer := .wake }) ∨
      (y.toMailbox = x.toMailbox ∧ y.user_id = x.user_id ∧ y.writer ≠ .wake ∧ y.writer ≠ .notStarted) := by
  unfold SocketState.resume at hr
  split at hr
  case h_1 hpc =>
    cases hr
    split
    · exact .inl ⟨{ x with wake := false }, rfl, rfl, rfl⟩
    · rename_i hwake
      exact .inr (.inl ⟨hpc, by simpa using hwake, rfl⟩)
  case h_2 =>
    split at hr
    · cases hr
      exact .inl ⟨{ x with wake := false }, rfl, rfl, rfl⟩
    · cases hr
  case h_3 =>
    cases hr
    exact .inl ⟨x, rfl, rfl, rfl⟩
  case h_9 =>
    split at hr
    · cases hr
      exact .inr (.inr ⟨rfl, rfl, nofun, nofun⟩)
    · cases hr
  all_goals cases hr
  all_goals exact .inr (.inr ⟨rfl, rfl, nofun, nofun⟩)

theorem Ok.resume (h : x.Ok size) (hr : x.resume how = some y) : y.Ok size := by
  rcases resume_cases hr with ⟨z, hz, -, rfl⟩ | ⟨hpc, hwake, rfl⟩ | ⟨hbox, -, hnot, hnot'⟩
  · exact ok_drain (hz ▸ h.mailbox)
  · refine ⟨h.mailbox, fun _ hq => ?_⟩
    have hset := h.awake (.inr hpc) hq
    rw [hwake] at hset
    cases hset
  · exact ⟨hbox ▸ h.mailbox, fun hwait => by simp [hnot, hnot'] at hwait⟩

theorem resume_user_id (hr : x.resume how = some y) : y.user_id = x.user_id := by
  rcases resume_cases hr with ⟨z, -, hz, rfl⟩ | ⟨-, -, rfl⟩ | ⟨-, hy, -⟩
  · exact drain_user_id.trans hz
  · rfl
  · exact hy

end SocketState

/-! ## What the manager keeps -/

namespace Fanout
variable {cfg : WsSettings} {owner : ℕ → ℕ} {s t : Fanout} {u ws : ℕ} {f : SocketState → SocketState}
  {rest : List ℕ}

structure Inv (cfg : WsSettings) (owner : ℕ → ℕ) (s : Fanout) : Prop where
  socket : ∀ ws x, s.sockets ws = some x → x.Ok cfg.send_queue_size ∧ x.user_id = owner ws
  known : ∀ ws ∈ s.states, s.sockets ws ≠ none
  same : ∀ u ws, ws ∈ s.connections u ↔ ws ∈ s.states ∧ owner ws = u
  once : ∀ u, (s.connections u).Nodup
  keys : s.states.Nodup
  capped : 0 < cfg.max_sockets_per_user → ∀ u, ((s.connections u).length : ℤ) ≤ cfg.max_sockets_per_user
  closing : ∀ u ws rest, .closeLocal u ws rest ∈ s.closers → owner ws = u ∧ ∀ x ∈ rest, owner x = u

theorem inv_start : Inv cfg owner start where
  socket _ _ h := by cases h
  known _ h := by cases h
  same u ws := iff_of_false List.not_mem_nil fun h => List.not_mem_nil h.1
  once _ := .nil
  keys := .nil
  capped h _ := h.le
  closing _ _ _ h := by cases h

/-- A change of one state object that it survives. -/
theorem Inv.setSocket (h : s.Inv cfg owner)
    (hf : ∀ x, s.sockets ws = some x → x.Ok cfg.send_queue_size →
      (f x).Ok cfg.send_queue_size ∧ (f x).user_id = x.user_id) :
    (s.setSocket ws f).Inv cfg owner where
  socket w y hy := by
    by_cases hw : w = ws
    · subst hw
      simp only [Fanout.setSocket, Function.update_self, Option.map_eq_some_iff] at hy
      obtain ⟨x, hx, rfl⟩ := hy
      obtain ⟨hok, hid⟩ := h.socket w x hx
      exact ⟨(hf x hx hok).1, (hf x hx hok).2.trans hid⟩
    · simp only [Fanout.setSocket, Function.update_of_ne hw] at hy
      exact h.socket w y hy
  known w hw := by
    by_cases heq : w = ws
    · subst heq
      simpa [Fanout.setSocket] using h.known w hw
    · simpa [Fanout.setSocket, Function.update_of_ne heq] using h.known w hw
  same := h.same
  once := h.once
  keys := h.keys
  capped := h.capped
  closing := h.closing

theorem Inv.shut (h : s.Inv cfg owner) : (s.setSocket ws .shut).Inv cfg owner :=
  h.setSocket fun _ _ hx => ⟨hx.shut, rfl⟩

theorem Inv.closers (h : s.Inv cfg owner) {closers : List Closer}
    (hc : ∀ u ws rest, .closeLocal u ws rest ∈ closers → owner ws = u ∧ ∀ x ∈ rest, owner x = u) :
    Inv cfg owner { s with closers } := ⟨h.socket, h.known, h.same, h.once, h.keys, h.capped, hc⟩

theorem Inv.connect {auth_date_epoch : Option ℤ} (h : s.Inv cfg owner) (hnew : s.sockets ws = none) :
    (s.connect cfg owner ws auth_date_epoch).Inv cfg owner := by
  have hstates : ws ∉ s.states := fun hw => h.known ws hw hnew
  have hconns : ∀ u, ws ∉ s.connections u := fun u hw => hstates ((h.same u ws).1 hw).1
  simp only [Fanout.connect]
  split
  · exact h
  · rename_i hroom
    refine ⟨fun w y hy => ?_, fun w hw => ?_, fun u w => ?_, fun u => ?_, ?_, fun hpos u => ?_, h.closing⟩
    · dsimp only at hy
      by_cases hw : w = ws
      · subst hw
        rw [Function.update_self] at hy
        cases hy
        exact ⟨⟨Mailbox.ok_empty, fun _ hne => absurd rfl hne⟩, rfl⟩
      · rw [Function.update_of_ne hw] at hy
        exact h.socket w y hy
    · dsimp only
      rcases List.mem_append.1 hw with hold | hw
      · rw [Function.update_of_ne (by rintro rfl; exact hstates hold)]
        exact h.known w hold
      · obtain rfl := List.mem_singleton.1 hw
        rw [Function.update_self]
        exact nofun
    · dsimp only
      by_cases hu : u = owner ws
      · subst hu
        rw [Function.update_self, List.mem_append, List.mem_append, h.same, List.mem_singleton, or_and_right]
        refine or_congr_right ⟨fun hw => ⟨hw, by rw [hw]⟩, And.left⟩
      · rw [Function.update_of_ne hu, h.same, List.mem_append, List.mem_singleton]
        refine ⟨fun hw => ⟨.inl hw.1, hw.2⟩, ?_⟩
        rintro ⟨hw | rfl, hown⟩
        · exact ⟨hw, hown⟩
        · exact absurd hown.symm hu
    · dsimp only
      by_cases hu : u = owner ws
      · subst hu
        rw [Function.update_self]
        exact List.nodup_append.2 ⟨h.once _, List.nodup_singleton ws, fun a ha b hb hab =>
          hconns _ (List.mem_singleton.1 hb ▸ hab ▸ ha)⟩
      · rw [Function.update_of_ne hu]
        exact h.once u
    · exact List.nodup_append.2 ⟨h.keys, List.nodup_singleton ws, fun a ha b hb hab =>
        hstates (List.mem_singleton.1 hb ▸ hab ▸ ha)⟩
    · dsimp only
      by_cases hu : u = owner ws
      · subst hu
        have hlt : ((s.connections (owner ws)).length : ℤ) < cfg.max_sockets_per_user := by
          by_contra hfull
          exact hroom ⟨hpos.ne', not_lt.1 hfull⟩
        rw [Function.update_self, List.length_append, List.length_singleton]
        push_cast
        omega
      · rw [Function.update_of_ne hu]
        exact h.capped hpos u

/-- Both maps lose the socket at once. -/
theorem Inv.forget (h : s.Inv cfg owner) (hown : owner ws = u) :
    Inv cfg owner { s with
      connections := Function.update s.connections u ((s.connections u).erase ws)
      states := s.states.erase ws } where
  socket := h.socket
  known w hw := h.known w (List.mem_of_mem_erase hw)
  same v w := by
    dsimp only
    rw [h.keys.mem_erase_iff]
    by_cases hv : v = u
    · subst hv
      rw [Function.update_self, (h.once v).mem_erase_iff, h.same, and_assoc]
    · rw [Function.update_of_ne hv, h.same]
      refine ⟨fun hw => ⟨⟨?_, hw.1⟩, hw.2⟩, fun hw => ⟨hw.1.2, hw.2⟩⟩
      rintro rfl
      exact hv (hw.2.symm.trans hown)
  once v := by
    dsimp only
    by_cases hv : v = u
    · subst hv
      rw [Function.update_self]
      exact (h.once v).erase ws
    · rw [Function.update_of_ne hv]
      exact h.once v
  keys := h.keys.erase ws
  capped hpos v := by
    dsimp only
    by_cases hv : v = u
    · subst hv
      rw [Function.update_self]
      have hle : ((s.connections v).erase ws).length ≤ (s.connections v).length := List.erase_sublist.length_le
      have hcap := h.capped hpos v
      omega
    · rw [Function.update_of_ne hv]
      exact h.capped hpos v
  closing := h.closing

theorem Inv.disconnect (h : s.Inv cfg owner) (hown : owner ws = u) : (s.disconnect u ws).Inv cfg owner := by
  have hforget := h.forget hown
  simp only [Fanout.disconnect]
  split
  · exact hforget.setSocket fun _ _ hx => ⟨⟨hx.mailbox, fun _ _ => rfl⟩, rfl⟩
  · rename_i hgone
    rwa [List.erase_of_not_mem hgone] at hforget

theorem Inv.sendLocal {payload : String} (h : s.Inv cfg owner) : (s.sendLocal cfg u payload).Inv cfg owner := by
  unfold Fanout.sendLocal
  generalize s.connections u = conns
  induction conns generalizing s with
  | nil => exact h
  | cons ws conns ih =>
    refine ih ?_
    dsimp only
    split
    · refine h.setSocket fun x _ hx => ?_
      split
      · exact ⟨hx, rfl⟩
      · exact ⟨hx.enqueue, rfl⟩
    · exact h

theorem Inv.closeNext (h : s.Inv cfg owner) (hown : ∀ ws ∈ rest, owner ws = u) :
    (s.closeNext u rest).Inv cfg owner := by
  cases rest with
  | nil => exact h
  | cons ws rest =>
    have hshut : Inv cfg owner (if ws ∈ s.states then s.setSocket ws .shut else s) := by
      split
      · exact h.shut
      · exact h
    refine hshut.closers fun v w others hc => ?_
    rcases List.mem_append.1 hc with hc | hc
    · exact hshut.closing v w others hc
    · cases List.mem_singleton.1 hc
      exact ⟨hown ws List.mem_cons_self, fun x hx => hown x (List.mem_cons_of_mem _ hx)⟩

theorem Inv.evictNext (h : s.Inv cfg owner) : (s.evictNext rest).Inv cfg owner := by
  cases rest with
  | nil => exact h
  | cons ws rest =>
    refine h.shut.closers fun v w others hc => ?_
    rcases List.mem_append.1 hc with hc | hc
    · exact h.closing v w others hc
    · cases List.mem_singleton.1 hc

theorem Inv.resumeCloser {c : Closer} {raised : Bool} (h : s.Inv cfg owner)
    (hc : ∀ u ws rest, c = .closeLocal u ws rest → owner ws = u ∧ ∀ x ∈ rest, owner x = u) :
    (s.resumeCloser c raised).Inv cfg owner := by
  cases c with
  | closeLocal u ws rest =>
    obtain ⟨hown, hrest⟩ := hc u ws rest rfl
    refine (h.disconnect hown).closeNext fun x hx => ?_
    cases raised with
    | true => cases hx
    | false => exact hrest x hx
  | evict ws rest => exact h.evictNext

theorem Inv.exec {e : WsEvent} (h : s.Inv cfg owner) (hs : s.exec cfg owner e = some t) : t.Inv cfg owner := by
  cases e with
  | connect ws auth_date_epoch =>
    simp only [Fanout.exec, Option.ite_none_right_eq_some] at hs
    obtain ⟨hnew, hs⟩ := hs
    cases hs
    exact h.connect hnew
  | sendLocal u payload =>
    cases hs
    exact h.sendLocal
  | writer ws how =>
    obtain ⟨y, hy, rfl⟩ := Option.map_eq_some_iff.1 hs
    obtain ⟨x, hx, hresume⟩ := Option.bind_eq_some_iff.1 hy
    have hset : { s with sockets := Function.update s.sockets ws (some y) } = s.setSocket ws fun _ => y := by
      rw [Fanout.setSocket, hx]
      rfl
    rw [hset]
    refine h.setSocket fun z hz hok => ?_
    obtain rfl : z = x := Option.some_injective _ (hz.symm.trans hx)
    exact ⟨hok.resume hresume, SocketState.resume_user_id hresume⟩
  | disconnect ws =>
    cases hs
    exact h.disconnect rfl
  | closeLocal u =>
    cases hs
    exact h.closeNext fun ws hws => ((h.same u ws).1 hws).2
  | evictExpired cutoff =>
    cases hs
    exact h.evictNext
  | closed i raised =>
    obtain ⟨c, hc, rfl⟩ := Option.map_eq_some_iff.1 hs
    refine Inv.resumeCloser (h.closers fun u ws rest hmem => h.closing u ws rest (List.mem_of_mem_eraseIdx hmem)) ?_
    rintro u ws rest rfl
    exact h.closing u ws rest (List.mem_of_getElem? hc)

/-- What is asked of the fan-out. -/
structure Ok (cfg : WsSettings) (s : Fanout) : Prop where
  in_order : ∀ ws x, s.sockets ws = some x → x.taken.Sublist x.put
  conserved : ∀ ws x, s.sockets ws = some x → x.closed = false →
    x.put.length = x.taken.length + x.dropped + x.queue.length
  bounded : ∀ ws x, s.sockets ws = some x → x.queue.length ≤ cfg.send_queue_size
  awake : ∀ ws x, s.sockets ws = some x → x.queue ≠ [] → x.closed = false → x.writer = .wake → x.wake = true
  same_sockets : ∀ u ws, ws ∈ s.connections u ↔ ws ∈ s.states ∧ ∃ x, s.sockets ws = some x ∧ x.user_id = u
  once : ∀ u, (s.connections u).Nodup
  capped : 0 < cfg.max_sockets_per_user → ∀ u, ((s.connections u).length : ℤ) ≤ cfg.max_sockets_per_user

theorem Inv.ok (h : s.Inv cfg owner) : s.Ok cfg where
  in_order ws x hx := (List.sublist_append_left _ _).trans (h.socket ws x hx).1.mailbox.ordered
  conserved ws x hx _ := (h.socket ws x hx).1.mailbox.conserved
  bounded ws x hx := (h.socket ws x hx).1.mailbox.bounded
  awake ws x hx hq _ hpc := (h.socket ws x hx).1.awake (.inl hpc) hq
  same_sockets u ws := by
    rw [h.same]
    refine and_congr_right fun hw => ?_
    obtain ⟨x, hx⟩ := Option.ne_none_iff_exists'.1 (h.known ws hw)
    have hid := (h.socket ws x hx).2
    refine ⟨fun hu => ⟨x, hx, hid.trans hu⟩, ?_⟩
    rintro ⟨y, hy, hu⟩
    rw [hx] at hy
    cases hy
    exact hid.symm.trans hu
  once := h.once
  capped := h.capped

/-- The steps of the event loop. -/
def Step (cfg : WsSettings) (owner : ℕ → ℕ) (e : WsEvent) (s t : Fanout) : Prop := s.exec cfg owner e = some t

/-- In every state the event loop can reach, no frame is lost, reordered or sent
twice, no wake-up is lost and the maps agree. -/
theorem fanout_ok (h : Reach (Step cfg owner) Free start s) : s.Ok cfg :=
  (h.invariant inv_start fun _ _ _ hinv _ hs => hinv.exec hs).ok

/-- A slow socket: of three frames its queue keeps two, and the writer sends the older of them. -/
def sampleFanoutEvents : List WsEvent :=
  [.connect 1 (some 0), .writer 1 .resumed, .sendLocal 7 "a", .sendLocal 7 "b", .sendLocal 7 "c", .writer 1 .resumed]

theorem sampleFanout_ok : ∃ s, Reach (Step ⟨2, 5⟩ fun _ => 7) Free start s ∧
    (∃ x, s.sockets 1 = some x ∧ x.put = ["a", "b", "c"] ∧ x.taken = ["b"] ∧ x.queue = ["c"] ∧ x.dropped = 1) ∧
      s.Ok ⟨2, 5⟩ := by
  obtain ⟨s, hs, hx⟩ := Reach.free_of_some (s := start) (p := fun s => (s.sockets 1).any fun x =>
    x.put = ["a", "b", "c"] ∧ x.taken = ["b"] ∧ x.queue = ["c"] ∧ x.dropped = 1)
    (Fanout.exec ⟨2, 5⟩ fun _ => 7) sampleFanoutEvents (by decide +kernel)
  obtain ⟨x, hrow, hp⟩ := (Option.any_eq_true _ _).1 hx
  exact ⟨s, hs, ⟨x, hrow, by simpa using hp⟩, fanout_ok hs⟩

end Fanout

end Garant
