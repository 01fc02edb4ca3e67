import Garant.Lib.Runs
import Garant.Lib.Table
/-!
# Concurrent transactions

Sessions that read a committed store, lock rows and commit, one statement at a
time. A session's next statement is a function of its local state, so a program
is a local state and a `Move` for each. A read sees what is committed at that
moment; a commit makes the session's writes visible and releases its locks; a
session may stop at any moment, and then it has written nothing since its last
commit. Nothing else orders the sessions.

`Reach.outline` is the proof rule: an invariant of the store and an assertion
about each session, kept by every move of the session itself and of the others.
`not_deadlocked` is the other: sessions that take their locks in one order
never wait for each other in a circle.
-/

namespace Transactions

/-- What a session does next. -/
inductive Move (σ R P : Type)
  /-- Reads the committed store. -/
  | read (next : σ → P)
  /-- Locks a row, and waits while another session holds it. -/
  | lock (r : R) (next : P)
  /-- Locks a row unless another session holds it. -/
  | tryLock (r : R) (got missed : P)
  /-- Commits, which releases the locks. How it went may depend on the store it met. -/
  | commit (write : σ → σ) (next : σ → P)
  /-- Reads and writes at once, outside any transaction. -/
  | exchange (write : σ → σ) (next : σ → P)
  | done

/-- The same statement in a program that has these local states among its own. -/
def Move.map {σ R P Q : Type} (f : P → Q) : Move σ R P → Move σ R Q
  | .read next => .read fun s => f (next s)
  | .lock r next => .lock r (f next)
  | .tryLock r got missed => .tryLock r (f got) (f missed)
  | .commit write next => .commit write fun s => f (next s)
  | .exchange write next => .exchange write fun s => f (next s)
  | .done => .done

/-- The same statement on a part of a larger store, in a program whose locks and
local states include these. -/
def Move.on {σ τ R R' P P' : Type} (get : τ → σ) (put : σ → τ → τ) (g : R → R') (f : P → P') : Move σ R P → Move τ R' P'
  | .read next => .read fun t => f (next (get t))
  | .lock r next => .lock (g r) (f next)
  | .tryLock r got missed => .tryLock (g r) (f got) (f missed)
  | .commit write next => .commit (fun t => put (write (get t)) t) fun t => f (next (get t))
  | .exchange write next => .exchange (fun t => put (write (get t)) t) fun t => f (next (get t))
  | .done => .done

/-- Where the statement may lead from the store `s`, locks apart. -/
def Move.Does {σ R P : Type} (s : σ) (p : P) (u : σ) : Move σ R P → Prop
  | .read next => p = next s ∧ u = s
  | .lock _ next => p = next ∧ u = s
  | .tryLock _ got missed => (p = got ∨ p = missed) ∧ u = s
  | .commit write next | .exchange write next => p = next s ∧ u = write s
  | .done => False

theorem Move.Does.of_map {σ R P Q : Type} {f : P → Q} {m : Move σ R P} {s u : σ} {q : Q} (h : (m.map f).Does s q u) :
    ∃ p, q = f p ∧ m.Does s p u := by
  cases m with
  | read next => exact ⟨_, h.1, rfl, h.2⟩
  | lock r next => exact ⟨_, h.1, rfl, h.2⟩
  | tryLock r got missed =>
    rcases h with ⟨rfl | rfl, hu⟩
    · exact ⟨got, rfl, .inl rfl, hu⟩
    · exact ⟨missed, rfl, .inr rfl, hu⟩
  | commit write next => exact ⟨_, h.1, rfl, h.2⟩
  | exchange write next => exact ⟨_, h.1, rfl, h.2⟩
  | done => exact h.elim

/-- A session: where it is, and the rows it has locked. -/
structure Session (R P : Type) where
  pc : P
  held : List R

/-- The committed store and the sessions. -/
structure Sys (σ R P : Type) where
  store : σ
  sessions : Table (Session R P)

/-- The label of a step. -/
inductive Event (Op : Type)
  | start (op : Op)
  | move (i : ℕ)
  | stop (i : ℕ)
  | other

variable {σ R P Op : Type}

/-- No session runs yet. -/
def Sys.idle (store : σ) : Sys σ R P := ⟨store, Table.empty⟩

/-- No session but `i` holds the row. -/
def Sys.FreeFor (s : Sys σ R P) (i : ℕ) (r : R) : Prop :=
  ∀ j x, j ≠ i → s.sessions.row j = some x → r ∉ x.held

theorem Sys.freeFor_of_check [DecidableEq R] {s : Sys σ R P} {i : ℕ} {r : R}
    (h : (List.range s.sessions.next).all (fun j => j = i || (s.sessions.row j).all fun x => r ∉ x.held) = true) :
    s.FreeFor i r := by
  intro j x hne hj
  have hall := List.all_eq_true.1 h j (List.mem_range.2 (Table.lt_next hj))
  rw [hj] at hall
  simpa [hne] using hall

section
variable (code : P → Move σ R P) (entry : Op → P) (Env : σ → σ → Prop)

/-- A move of session `i`, now `x`: the session and the store after it. -/
inductive Moves (s : Sys σ R P) (i : ℕ) (x : Session R P) : Session R P → σ → Prop
  | read {next : σ → P} (h : code x.pc = .read next) : Moves s i x ⟨next s.store, x.held⟩ s.store
  | lock {r : R} {next : P} (h : code x.pc = .lock r next) (hfree : s.FreeFor i r) :
      Moves s i x ⟨next, r :: x.held⟩ s.store
  | got {r : R} {got missed : P} (h : code x.pc = .tryLock r got missed) (hfree : s.FreeFor i r) :
      Moves s i x ⟨got, r :: x.held⟩ s.store
  | missed {r : R} {got missed : P} (h : code x.pc = .tryLock r got missed) (hfree : ¬ s.FreeFor i r) :
      Moves s i x ⟨missed, x.held⟩ s.store
  | commit {write : σ → σ} {next : σ → P} (h : code x.pc = .commit write next) :
      Moves s i x ⟨next s.store, []⟩ (write s.store)
  | exchange {write : σ → σ} {next : σ → P} (h : code x.pc = .exchange write next) :
      Moves s i x ⟨next s.store, x.held⟩ (write s.store)

/-- One step: a session starts, moves or stops, or something else changes the store. -/
inductive Step : Event Op → Sys σ R P → Sys σ R P → Prop
  | start {s : Sys σ R P} {op : Op} : Step (.start op) s ⟨s.store, s.sessions.insert ⟨entry op, []⟩⟩
  | move {s : Sys σ R P} {i : ℕ} {x y : Session R P} {t : σ} (hx : s.sessions.row i = some x)
      (h : Moves code s i x y t) : Step (.move i) s ⟨t, s.sessions.set i y⟩
  | stop {s : Sys σ R P} {i : ℕ} : Step (.stop i) s ⟨s.store, s.sessions.erase i⟩
  | other {s : Sys σ R P} {t : σ} (h : Env s.store t) : Step .other s ⟨t, s.sessions⟩

variable {code entry Env}
variable {s t : Sys σ R P} {Ok : Event Op → Sys σ R P → Prop} {store : σ}

/-! ## What a statement does -/

section
variable {i : ℕ} {x y : Session R P} {u : σ} {r : R} {write : σ → σ}

theorem Moves.of_read {next : σ → P} (h : Moves code s i x y u) (hc : code x.pc = .read next) :
    y = ⟨next s.store, x.held⟩ ∧ u = s.store := by
  cases h <;> simp_all

theorem Moves.of_lock {next : P} (h : Moves code s i x y u) (hc : code x.pc = .lock r next) :
    y = ⟨next, r :: x.held⟩ ∧ u = s.store := by
  cases h <;> simp_all

theorem Moves.of_commit {next : σ → P} (h : Moves code s i x y u) (hc : code x.pc = .commit write next) :
    y = ⟨next s.store, []⟩ ∧ u = write s.store := by
  cases h <;> simp_all

theorem Moves.of_exchange {next : σ → P} (h : Moves code s i x y u) (hc : code x.pc = .exchange write next) :
    y = ⟨next s.store, x.held⟩ ∧ u = write s.store := by
  cases h <;> simp_all

theorem Moves.does (h : Moves code s i x y u) : (code x.pc).Does s.store y.pc u := by
  cases h with
  | read hc | lock hc hfree | commit hc | exchange hc =>
    rw [hc]
    exact ⟨rfl, rfl⟩
  | got hc hfree =>
    rw [hc]
    exact ⟨.inl rfl, rfl⟩
  | missed hc hfree =>
    rw [hc]
    exact ⟨.inr rfl, rfl⟩

theorem Moves.of_done (h : Moves code s i x y u) (hc : code x.pc = .done) : False := by
  cases h <;> simp_all
end

/-! ## Invariants -/

/-- A fact about every session and the store holds after a step if the move
keeps it for the session that moved and for each of the others. -/
theorem Step.all {L : σ → ℕ → Session R P → Prop} {e : Event Op} (hstep : Step code entry Env e s t)
    (hall : ∀ i x, s.sessions.row i = some x → L s.store i x)
    (hstart : ∀ op, e = .start op → L s.store s.sessions.next ⟨entry op, []⟩)
    (hmove : ∀ i x y u, e = .move i → s.sessions.row i = some x → Moves code s i x y u →
      L u i y ∧ ∀ j z, j ≠ i → s.sessions.row j = some z → L u j z)
    (hother : ∀ u, e = .other → Env s.store u → ∀ j z, s.sessions.row j = some z → L u j z) :
    ∀ i x, t.sessions.row i = some x → L t.store i x := by
  intro i x hi
  cases hstep with
  | start =>
    rw [Table.insert_row] at hi
    split at hi
    · subst i
      cases hi
      exact hstart _ rfl
    · exact hall i x hi
  | @move _ k y z u hy h =>
    obtain ⟨hown, hothers⟩ := hmove k y z u rfl hy h
    rw [Table.set_row hy] at hi
    split at hi
    · subst i
      cases hi
      exact hown
    · next hne => exact hothers i x hne hi
  | @stop _ k =>
    rw [Table.erase_row] at hi
    split at hi
    · cases hi
    · exact hall i x hi
  | other h => exact hother _ rfl h i x hi

/-- The proof rule for runs: `I` of the store and `L` of each session hold in
every reachable state. A start or a move may use both, and the condition on the
step; a move gives `I` again, `L` of the session that moved, and `L` of every
other one. -/
theorem outline_started {I : σ → Prop} {L : σ → ℕ → Session R P → Prop}
    (hreach : Reach (Step code entry Env) Ok (Sys.idle store) t) (h0 : I store)
    (hstart : ∀ (s : Sys σ R P) op i, I s.store → Ok (.start op) s → L s.store i ⟨entry op, []⟩)
    (hmove : ∀ (s : Sys σ R P) i x y u, I s.store → (∀ j z, s.sessions.row j = some z → L s.store j z) →
      Ok (.move i) s → s.sessions.row i = some x → Moves code s i x y u →
      I u ∧ L u i y ∧ ∀ j z, j ≠ i → s.sessions.row j = some z → L u j z)
    (hother : ∀ (s : Sys σ R P) u, I s.store → Ok .other s → Env s.store u →
      I u ∧ ∀ j z, s.sessions.row j = some z → L s.store j z → L u j z) :
    I t.store ∧ ∀ i x, t.sessions.row i = some x → L t.store i x := by
  refine hreach.invariant (I := fun s => I s.store ∧ ∀ i x, s.sessions.row i = some x → L s.store i x)
    ⟨h0, fun i x hi => by cases hi⟩ ?_
  rintro e s t ⟨hI, hL⟩ hok hstep
  refine ⟨?_, hstep.all hL ?_ ?_ ?_⟩
  · cases hstep with
    | start => exact hI
    | stop => exact hI
    | move hx h => exact (hmove s _ _ _ _ hI hL hok hx h).1
    | other h => exact (hother s _ hI hok h).1
  · rintro op rfl
    exact hstart s op _ hI hok
  · rintro i x y u rfl hx h
    exact (hmove s i x y u hI hL hok hx h).2
  · rintro u rfl h j z hj
    exact (hother s u hI hok h).2 j z hj (hL j z hj)

/-- The rule when what a session starts with needs no condition. -/
theorem outline {I : σ → Prop} {L : σ → ℕ → Session R P → Prop}
    (hreach : Reach (Step code entry Env) Ok (Sys.idle store) t) (h0 : I store)
    (hstart : ∀ op u i, I u → L u i ⟨entry op, []⟩)
    (hmove : ∀ (s : Sys σ R P) i x y u, I s.store → (∀ j z, s.sessions.row j = some z → L s.store j z) →
      Ok (.move i) s → s.sessions.row i = some x → Moves code s i x y u →
      I u ∧ L u i y ∧ ∀ j z, j ≠ i → s.sessions.row j = some z → L u j z)
    (hother : ∀ (s : Sys σ R P) u, I s.store → Ok .other s → Env s.store u →
      I u ∧ ∀ j z, s.sessions.row j = some z → L s.store j z → L u j z) :
    I t.store ∧ ∀ i x, t.sessions.row i = some x → L t.store i x :=
  outline_started hreach h0 (fun _ op i hI _ => hstart op _ i hI) hmove hother

/-- The rule with a relation between any two sessions as well. A start gives it
between the new session and the others; a move gives it again for the session
that moved and for every other two. -/
theorem outline_pairs {I : σ → Prop} {L : σ → Session R P → Prop} {M : σ → Session R P → Session R P → Prop}
    (hreach : Reach (Step code entry Env) Ok (Sys.idle store) t) (h0 : I store)
    (hsymm : ∀ u x y, M u x y → M u y x)
    (hstart : ∀ op u, I u → L u ⟨entry op, []⟩ ∧ ∀ z, L u z → M u ⟨entry op, []⟩ z)
    (hmove : ∀ (s : Sys σ R P) i x y u, I s.store → L s.store x →
      (∀ j z, j ≠ i → s.sessions.row j = some z → L s.store z ∧ M s.store x z) →
      Ok (.move i) s → s.sessions.row i = some x → Moves code s i x y u →
      I u ∧ L u y ∧ (∀ j z, j ≠ i → s.sessions.row j = some z → L u z ∧ M u y z) ∧
        ∀ z w, L s.store z → L s.store w → M s.store z w → M u z w)
    (hother : ∀ s u, I s → Env s u → I u ∧ (∀ z, L s z → L u z) ∧ ∀ z w, M s z w → M u z w) :
    I t.store ∧ (∀ i x, t.sessions.row i = some x → L t.store x) ∧
      ∀ i j x y, i ≠ j → t.sessions.row i = some x → t.sessions.row j = some y → M t.store x y := by
  refine hreach.invariant (I := fun s => I s.store ∧ (∀ i x, s.sessions.row i = some x → L s.store x) ∧
    ∀ i j x y, i ≠ j → s.sessions.row i = some x → s.sessions.row j = some y → M s.store x y)
    ⟨h0, fun i x hi => (by cases hi), fun i j x y _ hi => (by cases hi)⟩ ?_
  rintro e s t ⟨hI, hL, hM⟩ hok hstep
  cases hstep with
  | @start _ op =>
    obtain ⟨hnew, hpair⟩ := hstart op s.store hI
    refine ⟨hI, fun i x hi => ?_, fun i j x y hij hi hj => ?_⟩
    · rw [Table.insert_row] at hi
      split at hi
      · cases hi
        exact hnew
      · exact hL i x hi
    · rw [Table.insert_row] at hi hj
      split at hi
      · cases hi
        rw [if_neg (by omega)] at hj
        exact hpair y (hL j y hj)
      · split at hj
        · cases hj
          exact hsymm _ _ _ (hpair x (hL i x hi))
        · exact hM i j x y hij hi hj
  | stop =>
    refine ⟨hI, fun i x hi => ?_, fun i j x y hij hi hj => ?_⟩
    · rw [Table.erase_row] at hi
      split at hi
      · cases hi
      · exact hL i x hi
    · rw [Table.erase_row] at hi hj
      split at hi
      · cases hi
      · split at hj
        · cases hj
        · exact hM i j x y hij hi hj
  | other h =>
    obtain ⟨hI', hL', hM'⟩ := hother s.store _ hI h
    exact ⟨hI', fun i x hi => hL' x (hL i x hi), fun i j x y hij hi hj => hM' x y (hM i j x y hij hi hj)⟩
  | @move _ k z w u hz h =>
    obtain ⟨hI', hown, hothers, hrest⟩ := hmove s k z w u hI (hL k z hz)
      (fun j v hj hv => ⟨hL j v hv, hM k j z v hj.symm hz hv⟩) hok hz h
    refine ⟨hI', fun i x hi => ?_, fun i j x y hij hi hj => ?_⟩
    · rw [Table.set_row hz] at hi
      split at hi
      · cases hi
        exact hown
      · next hne => exact (hothers i x hne hi).1
    · rw [Table.set_row hz] at hi hj
      -- the session that moved may be the one, the other, or neither
      split at hi
      · cases hi
        rw [if_neg (by omega)] at hj
        exact (hothers j y (by omega) hj).2
      · next hik =>
        split at hj
        · cases hj
          exact hsymm _ _ _ (hothers i x hik hi).2
        · exact hrest x y (hL i x hi) (hL j y hj) (hM i j x y hij hi hj)

/-! ## Runs step by step -/

section
variable {s₀ : Sys σ R P} {i : ℕ} {x : Session R P} {r : R} {p : P} {write : σ → σ}

theorem run_start (h : Reach (Step code entry Env) Ok s₀ s) (op : Op) (hok : Ok (.start op) s) :
    Reach (Step code entry Env) Ok s₀ ⟨s.store, s.sessions.insert ⟨entry op, []⟩⟩ := h.step hok .start

theorem run_read {next : σ → P} (h : Reach (Step code entry Env) Ok s₀ s) (i : ℕ) (hx : s.sessions.row i = some x)
    (hc : code x.pc = .read next) (hp : next s.store = p) (hok : Ok (.move i) s) :
    Reach (Step code entry Env) Ok s₀ ⟨s.store, s.sessions.set i ⟨p, x.held⟩⟩ := by
  subst hp
  exact h.step hok (.move hx (.read hc))

theorem run_lock (h : Reach (Step code entry Env) Ok s₀ s) (i : ℕ) (hx : s.sessions.row i = some x)
    (hc : code x.pc = .lock r p) (hfree : s.FreeFor i r) (hok : Ok (.move i) s) :
    Reach (Step code entry Env) Ok s₀ ⟨s.store, s.sessions.set i ⟨p, r :: x.held⟩⟩ :=
  h.step hok (.move hx (.lock hc hfree))

theorem run_commit {next : σ → P} (h : Reach (Step code entry Env) Ok s₀ s) (i : ℕ)
    (hx : s.sessions.row i = some x) (hc : code x.pc = .commit write next) (hp : next s.store = p)
    (hok : Ok (.move i) s) : Reach (Step code entry Env) Ok s₀ ⟨write s.store, s.sessions.set i ⟨p, []⟩⟩ := by
  subst hp
  exact h.step hok (.move hx (.commit hc))

theorem run_exchange {next : σ → P} (h : Reach (Step code entry Env) Ok s₀ s) (i : ℕ)
    (hx : s.sessions.row i = some x) (hc : code x.pc = .exchange write next) (hp : next s.store = p)
    (hok : Ok (.move i) s) : Reach (Step code entry Env) Ok s₀ ⟨write s.store, s.sessions.set i ⟨p, x.held⟩⟩ := by
  subst hp
  exact h.step hok (.move hx (.exchange hc))
end

/-! ## Locks -/

/-- No row is locked twice. -/
def Sys.Exclusive (s : Sys σ R P) : Prop :=
  ∀ i x, s.sessions.row i = some x → ∀ r ∈ x.held, s.FreeFor i r

theorem Sys.exclusive_idle : (Sys.idle store : Sys σ R P).Exclusive := by
  intro i x hi
  cases hi

/-- What a session holds after a move it held before, or the row was free. -/
theorem Moves.held {i : ℕ} {x y : Session R P} {u : σ} (h : Moves code s i x y u) :
    ∀ r ∈ y.held, r ∈ x.held ∨ s.FreeFor i r := by
  intro r hr
  cases h with
  | read | missed | exchange => exact .inl hr
  | commit => cases hr
  | lock _ hfree | got _ hfree =>
    rcases List.mem_cons.1 hr with rfl | hr
    · exact .inr hfree
    · exact .inl hr

theorem Step.exclusive {e : Event Op} (h : Step code entry Env e s t) (hs : s.Exclusive) : t.Exclusive := by
  intro i x hi r hr j y hji hj hry
  cases h with
  | start =>
    rw [Table.insert_row] at hi hj
    split at hi
    · cases hi
      cases hr
    · split at hj
      · cases hj
        cases hry
      · exact hs i x hi r hr j y hji hj hry
  | stop =>
    rw [Table.erase_row] at hi hj
    split at hi
    · cases hi
    · split at hj
      · cases hj
      · exact hs i x hi r hr j y hji hj hry
  | other => exact hs i x hi r hr j y hji hj hry
  | @move _ k z w u hz hm =>
    rw [Table.set_row hz] at hi hj
    -- the session that moved may be the one, the other, or neither
    split at hi
    · subst i
      cases hi
      rw [if_neg hji] at hj
      rcases hm.held r hr with hold | hfree
      · exact hs k z hz r hold j y hji hj hry
      · exact hfree j y hji hj hry
    · next hik =>
      split at hj
      · subst j
        cases hj
        rcases hm.held r hry with hold | hfree
        · exact hs i x hi r hr k z hji hz hold
        · exact hfree i x hik hi hr
      · exact hs i x hi r hr j y hji hj hry

theorem exclusive (h : Reach (Step code entry Env) Ok (Sys.idle store) t) : t.Exclusive :=
  h.invariant (I := Sys.Exclusive) Sys.exclusive_idle fun _ _ _ hs _ ht => ht.exclusive hs

/-! ## Waiting -/

variable (code) in
/-- The session's next statement locks the row. -/
def Sys.Wants (s : Sys σ R P) (i : ℕ) (r : R) : Prop :=
  ∃ x next, s.sessions.row i = some x ∧ code x.pc = .lock r next

def Sys.Holds (s : Sys σ R P) (i : ℕ) (r : R) : Prop := ∃ x, s.sessions.row i = some x ∧ r ∈ x.held

variable (code) in
/-- Session `i` waits for a row that `j` holds. -/
def Sys.WaitsFor (s : Sys σ R P) (i j : ℕ) : Prop := i ≠ j ∧ ∃ r, s.Wants code i r ∧ s.Holds j r

variable (code) in
/-- Some sessions wait for each other in a circle. -/
def Sys.Deadlocked (s : Sys σ R P) : Prop := ∃ i, Relation.TransGen (s.WaitsFor code) i i

variable (code) in
/-- Every session asks only for rows above all those it holds. -/
def Sys.InOrder [Preorder R] (s : Sys σ R P) : Prop :=
  ∀ i r, s.Wants code i r → s.Holds i r ∨ ∀ r', s.Holds i r' → r' < r

/-- Going round in a circle, everyone is waited for and waits. -/
theorem transGen_inside {α : Type} {r : α → α → Prop} {a b : α} (h : Relation.TransGen r a b) (ha : ∃ c, r c a)
    (hb : ∃ c, r b c) : Relation.TransGen (fun a b => r a b ∧ (∃ c, r c a) ∧ ∃ c, r b c) a b := by
  induction h with
  | single hab => exact .single ⟨hab, ha, hb⟩
  | @tail c b hac hcb ih =>
    obtain ⟨d, -, hdc⟩ := Relation.TransGen.tail'_iff.1 hac
    exact .tail (ih ⟨b, hcb⟩) ⟨hcb, ⟨d, hdc⟩, hb⟩

/-- A circle of waits is one of `r'` too, if every wait between two that are
both waited for and waiting is. -/
theorem circle_mono {α : Type} {r r' : α → α → Prop} (h : ∀ a b, r a b → (∃ c, r c a) → (∃ c, r b c) → r' a b)
    (hr : ∃ a, Relation.TransGen r a a) : ∃ a, Relation.TransGen r' a a := by
  obtain ⟨a, ha⟩ := hr
  obtain ⟨b, hab, -⟩ := Relation.TransGen.head'_iff.1 ha
  obtain ⟨c, -, hca⟩ := Relation.TransGen.tail'_iff.1 ha
  exact ⟨a, Relation.TransGen.mono (fun x y hxy => h x y hxy.1 hxy.2.1 hxy.2.2) _ _ (transGen_inside ha ⟨c, hca⟩ ⟨b, hab⟩)⟩

/-- What is waited for is in `p` once who waits is, so a circle of waits is all in
`p` or all outside. -/
theorem circle_split {α : Type} {r : α → α → Prop} {p : α → Prop} (hp : ∀ a b, r a b → p a → p b)
    (hr : ∃ a, Relation.TransGen r a a) :
    (∃ a, Relation.TransGen (fun a b => r a b ∧ p a ∧ p b) a a) ∨
      ∃ a, Relation.TransGen (fun a b => r a b ∧ ¬ p a ∧ ¬ p b) a a := by
  have inside : ∀ {a b}, Relation.TransGen r a b → p a → Relation.TransGen (fun a b => r a b ∧ p a ∧ p b) a b ∧ p b := by
    intro a b h ha
    induction h with
    | single hab => exact ⟨.single ⟨hab, ha, hp _ _ hab ha⟩, hp _ _ hab ha⟩
    | tail _ hcb ih => exact ⟨.tail ih.1 ⟨hcb, ih.2, hp _ _ hcb ih.2⟩, hp _ _ hcb ih.2⟩
  have outside : ∀ {a b}, Relation.TransGen r a b → ¬ p b → Relation.TransGen (fun a b => r a b ∧ ¬ p a ∧ ¬ p b) a b := by
    intro a b h hb
    induction h with
    | single hab => exact .single ⟨hab, fun ha => hb (hp _ _ hab ha), hb⟩
    | @tail c b _ hcb ih =>
      have hc : ¬ p c := fun hc => hb (hp _ _ hcb hc)
      exact .tail (ih hc) ⟨hcb, hc, hb⟩
  obtain ⟨a, ha⟩ := hr
  by_cases hpa : p a
  · exact .inl ⟨a, (inside ha hpa).1⟩
  · exact .inr ⟨a, outside ha hpa⟩

theorem Sys.Wants.unique {i : ℕ} {r r' : R} (h : s.Wants code i r) (h' : s.Wants code i r') : r = r' := by
  obtain ⟨x, next, hx, hr⟩ := h
  obtain ⟨x', next', hx', hr'⟩ := h'
  rw [hx] at hx'
  cases hx'
  rw [hr] at hr'
  cases hr'
  rfl

/-- Along a path of waits the wanted rows go up. -/
theorem Sys.InOrder.lt [Preorder R] {i j k : ℕ} {a b : R} (ho : s.InOrder code) (hx : s.Exclusive)
    (h : Relation.TransGen (s.WaitsFor code) i j) (hk : s.WaitsFor code j k) (ha : s.Wants code i a)
    (hb : s.Wants code j b) : a < b := by
  induction h generalizing k b with
  | single hij =>
    obtain ⟨-, r, hr, hheld⟩ := hij
    rw [← ha.unique hr] at hheld
    obtain ⟨hne, r', hr', y, hy, hry⟩ := hk
    rw [← hb.unique hr'] at hry
    rcases ho _ b hb with ⟨x, hxj, hxr⟩ | hall
    · exact absurd hry (hx _ x hxj b hxr _ y hne.symm hy)
    · exact hall a hheld
  | tail _ hmj ih =>
    obtain ⟨-, r, hr, hheld⟩ := id hmj
    obtain ⟨hne, r', hr', y, hy, hry⟩ := hk
    rw [← hb.unique hr'] at hry
    rcases ho _ b hb with ⟨x, hxj, hxr⟩ | hall
    · exact absurd hry (hx _ x hxj b hxr _ y hne.symm hy)
    · exact lt_trans (ih hmj hr) (hall r hheld)

/-- Sessions that take their locks in one order are never in a deadlock. -/
theorem Sys.InOrder.not_deadlocked [Preorder R] (ho : s.InOrder code) (hx : s.Exclusive) : ¬ s.Deadlocked code := by
  rintro ⟨i, hi⟩
  obtain ⟨k, hik, -⟩ := Relation.TransGen.head'_iff.1 hi
  obtain ⟨-, r, hr, -⟩ := id hik
  exact lt_irrefl _ (ho.lt hx hi hik hr hr)
end

/-! ## Straight-line programs -/

/-- A program given as what it does, statement by statement. -/
inductive Prog (σ R : Type)
  | done
  | read (next : σ → Prog σ R)
  | lock (r : R) (next : Prog σ R)
  | tryLock (r : R) (got missed : Prog σ R)
  | commit (write : σ → σ) (next : Prog σ R)

/-- A program on behalf of an operation. -/
structure Task (σ R Op : Type) where
  op : Op
  prog : Prog σ R

def Task.code (x : Task σ R Op) : Move σ R (Task σ R Op) :=
  match x.prog with
  | .done => .done
  | .read next => .read fun s => ⟨x.op, next s⟩
  | .lock r next => .lock r ⟨x.op, next⟩
  | .tryLock r got missed => .tryLock r ⟨x.op, got⟩ ⟨x.op, missed⟩
  | .commit write next => .commit write fun _ => ⟨x.op, next⟩

namespace Prog

/-- Locks the rows one after the other. -/
def lockAll : List R → Prog σ R → Prog σ R
  | [], next => next
  | r :: rs, next => .lock r (lockAll rs next)

/-- Locks those of the rows that nobody holds, and goes on with these. -/
def lockFree {K : Type} (row : K → R) : List K → (List K → Prog σ R) → Prog σ R
  | [], next => next []
  | k :: ks, next => .tryLock (row k) (lockFree row ks fun got => next (k :: got)) (lockFree row ks next)

variable [Preorder R]

/-- Every lock the program waits for is above those it holds then, as long as
it reads stores that meet `P`. -/
def Ordered (P : σ → Prop) : Prog σ R → List R → Prop
  | .done, _ => True
  | .read next, held => ∀ s, P s → (next s).Ordered P held
  | .lock r next, held => (r ∈ held ∨ ∀ h ∈ held, h < r) ∧ next.Ordered P (r :: held)
  | .tryLock r got missed, held => got.Ordered P (r :: held) ∧ missed.Ordered P held
  | .commit _ next, _ => next.Ordered P []

theorem ordered_lockFree {P : σ → Prop} {K : Type} {row : K → R} {ks : List K} {next : List K → Prog σ R}
    {held : List R} (h : ∀ got, got.Sublist ks → (next got).Ordered P ((got.map row).reverse ++ held)) :
    (lockFree row ks next).Ordered P held := by
  induction ks generalizing next held with
  | nil => exact h [] .slnil
  | cons k ks ih =>
    constructor
    · refine ih fun got hgot => ?_
      have := h (k :: got) (hgot.cons_cons k)
      simpa using this
    · exact ih fun got hgot => h got (hgot.cons k)

/-- Rows in ascending order, all above those held, may be locked one after the other. -/
theorem ordered_lockAll {P : σ → Prop} {rs : List R} {next : Prog σ R} {held : List R}
    (hup : rs.Pairwise (fun a b => a = b ∨ a < b)) (habove : ∀ h ∈ held, ∀ r ∈ rs, h = r ∨ h < r)
    (hnext : next.Ordered P (rs.reverse ++ held)) : (lockAll rs next).Ordered P held := by
  induction rs generalizing held with
  | nil => exact hnext
  | cons r rs ih =>
    rw [List.pairwise_cons] at hup
    refine ⟨?_, ih hup.2 ?_ (by simpa using hnext)⟩
    · by_cases hr : r ∈ held
      · exact .inl hr
      · refine .inr fun h hh => ?_
        rcases habove h hh r List.mem_cons_self with rfl | hlt
        · exact absurd hh hr
        · exact hlt
    · intro h hh r' hr'
      rcases List.mem_cons.1 hh with rfl | hh
      · exact hup.1 r' hr'
      · exact habove h hh r' (List.mem_cons_of_mem _ hr')

end Prog

section
variable {entry : Op → Prog σ R} {Env : σ → σ → Prop} {Sound : Op → σ → Prop} {store : σ}
  {t : Sys σ R (Task σ R Op)}

/-- Whoever reads sees a store that its operation's condition holds of. -/
def ReadsSound (Sound : Op → σ → Prop) : Event Op → Sys σ R (Task σ R Op) → Prop
  | .move i, s => ∀ x next, s.sessions.row i = some x → x.pc.prog = .read next → Sound x.pc.op s.store
  | _, _ => True

variable [Preorder R]

theorem Moves.ordered {s : Sys σ R (Task σ R Op)} {i : ℕ} {x y : Session R (Task σ R Op)} {u : σ}
    (h : Moves Task.code s i x y u) (hx : x.pc.prog.Ordered (Sound x.pc.op) x.held)
    (hread : ∀ next, x.pc.prog = .read next → Sound x.pc.op s.store) :
    y.pc.prog.Ordered (Sound y.pc.op) y.held := by
  obtain ⟨⟨op, prog⟩, held⟩ := x
  cases h with
  | read hc =>
    cases prog with
    | read next =>
      cases hc
      exact hx s.store (hread next rfl)
    | _ => cases hc
  | lock hc =>
    cases prog with
    | lock r next =>
      cases hc
      exact hx.2
    | _ => cases hc
  | got hc =>
    cases prog with
    | tryLock r got missed =>
      cases hc
      exact hx.1
    | _ => cases hc
  | missed hc =>
    cases prog with
    | tryLock r got missed =>
      cases hc
      exact hx.2
    | _ => cases hc
  | commit hc =>
    cases prog with
    | commit write next =>
      cases hc
      exact hx
    | _ => cases hc
  | exchange hc => cases prog <;> cases hc

theorem inOrder (hop : ∀ op, (entry op).Ordered (Sound op) [])
    (h : Reach (Step Task.code (fun op => ⟨op, entry op⟩) Env) (ReadsSound Sound) (Sys.idle store) t) :
    t.InOrder Task.code := by
  have hall := (outline (I := fun _ => True) (L := fun _ _ x => x.pc.prog.Ordered (Sound x.pc.op) x.held) h trivial
    (fun op _ _ _ => hop op)
    (fun s i x y u _ hL hok hx hm =>
      ⟨trivial, hm.ordered (hL i x hx) fun next hp => hok x next hx hp, fun j z _ hj => hL j z hj⟩)
    fun s u _ _ _ => ⟨trivial, fun _ _ _ hz => hz⟩).2
  rintro i r ⟨x, next, hx, hr⟩
  have hxo := hall i x hx
  obtain ⟨⟨op, prog⟩, held⟩ := x
  cases prog with
  | lock r' p =>
    cases hr
    rcases hxo.1 with hmem | hlt
    · exact .inl ⟨_, hx, hmem⟩
    · refine .inr ?_
      rintro r' ⟨y, hy, hmem⟩
      rw [hx] at hy
      cases hy
      exact hlt r' hmem
  | _ => cases hr

/-- Operations that each take their locks in order never run into a deadlock together. -/
theorem not_deadlocked (hop : ∀ op, (entry op).Ordered (Sound op) [])
    (h : Reach (Step Task.code (fun op => ⟨op, entry op⟩) Env) (ReadsSound Sound) (Sys.idle store) t) :
    ¬ t.Deadlocked Task.code :=
  (inOrder hop h).not_deadlocked (exclusive h)
end

end Transactions
