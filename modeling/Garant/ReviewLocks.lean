import Garant.Reviews
/-!
# Review requests waiting for each other

Inserting a review shares the rows of its author and its target until the
commit (`FOR KEY SHARE`), and the request then locks the target for update,
which waits for everyone else who has any lock on it. An admin's request shares
the admin's row as well, with its entry in the audit log, and one that spends a
TOTP code has updated that row before.

Two reviews of one target, or of each other's authors, inserted before either
locks its target, wait for each other for good (`reviews_deadlock`).
`reviews_no_deadlock`: there is no circle of waits in any run in which no request
comes to wait between two others.
-/
open Transactions Relation

namespace Garant

/-- `FOR KEY SHARE`, the `FOR NO KEY UPDATE` of an `UPDATE`, and `FOR UPDATE`. -/
inductive UserLock
  | keyShare
  | noKeyUpdate
  | update
deriving DecidableEq

def UserLock.conflicts : UserLock → UserLock → Bool
  | .update, _ | _, .update | .noKeyUpdate, .noKeyUpdate => true
  | _, _ => false

/-- The users whose rows a write shares. An edit's entry in the audit log is
written at the commit, a deletion's before it. -/
def ReviewWrite.shared (admin : Option ℕ) : ReviewWrite → List ℕ
  | .insert r => [r.author_id, r.target_id]
  | .edit .. => []
  | .delete _ => admin.toList

/-- The users whose rows the request shares. -/
def ReviewPc.shared : ReviewPc → List ℕ
  | .shareTarget _ r => [r.author_id]
  | .lockReview admin _ w _ | .flushed admin _ w _ => w.shared (some admin)
  | .lockTarget admin _ w | .recount admin _ w => w.shared admin
  | .audit _ w _ => w.shared none
  | .commit admin w _ => admin.toList ++ w.shared none
  | _ => []

/-- The lock on a user that the next statement takes. -/
def ReviewPc.wants : ReviewPc → Option (UserLock × ℕ)
  | .totp admin _ => some (.noKeyUpdate, admin)
  | .shareAuthor _ r => some (.keyShare, r.author_id)
  | .shareTarget _ r => some (.keyShare, r.target_id)
  | .auditDelete admin .. | .audit admin .. => some (.keyShare, admin)
  | .lockTarget _ t _ => some (.update, t)
  | _ => none

/-- The locks on users that a session has. -/
def HoldsUser (x : Transactions.Session ReviewLock ReviewPc) : UserLock → ℕ → Prop
  | .keyShare, u => u ∈ x.pc.shared
  | .noKeyUpdate, u => .totp u ∈ x.held
  | .update, u => .user u ∈ x.held

/-- A lock on a user is not given while another session has one that conflicts. -/
def Admitted : Event ReviewOp → ReviewSys → Prop
  | .move i, s => ∀ x m u, s.sessions.row i = some x → x.pc.wants = some (m, u) →
      ∀ j y m', j ≠ i → s.sessions.row j = some y → m.conflicts m' → ¬ HoldsUser y m' u
  | _, _ => True

/-- The steps of the review requests under the locks on users. -/
def SharingStep (e : Event ReviewOp) (s t : ReviewSys) : Prop := ReviewStep e s t ∧ Admitted e s

/-- Session `i` waits for `j` at the row of a user. -/
def UserWaits (s : ReviewSys) (i j : ℕ) : Prop :=
  i ≠ j ∧ ∃ x y m m' u, s.sessions.row i = some x ∧ s.sessions.row j = some y ∧ x.pc.wants = some (m, u) ∧
    m.conflicts m' ∧ HoldsUser y m' u

/-! ## The condition -/

/-- The user that the request waits to lock, its review being written. -/
def ReviewPc.locking : ReviewPc → Option ℕ
  | .lockTarget _ t _ => some t
  | _ => none

/-- The admin whose row an entry in the audit log shares next, and the target
that the request has locked. -/
def ReviewPc.auditing : ReviewPc → Option (ℕ × ℕ)
  | .audit a _ (some (t, _)) => some (a, t)
  | _ => none

/-- A request that comes to wait to lock a user: which one, and whose rows it
shares by then. -/
def ReviewPc.toLock : ReviewPc → Option (ℕ × List ℕ)
  | .shareTarget _ r => some (r.target_id, [r.author_id, r.target_id])
  | .flushed admin _ w (some t) => some (t, w.shared (some admin))
  | _ => none

/-- A request that comes to make its entry in the audit log. -/
def ReviewPc.toAudit : ReviewPc → Option (ℕ × ℕ)
  | .recount (some a) t (.insert _) | .recount (some a) t (.edit ..) => some (a, t)
  | _ => none

/-- The rows that nobody else can lock for update. -/
def Keeps (x : Transactions.Session ReviewLock ReviewPc) (u : ℕ) : Prop := u ∈ x.pc.shared ∨ .totp u ∈ x.held

/-- A session other than `i` waits to lock `u`. -/
def Locking (s : ReviewSys) (i : ℕ) (y : Transactions.Session ReviewLock ReviewPc) (u : ℕ) : Prop :=
  ∃ j, j ≠ i ∧ s.sessions.row j = some y ∧ y.pc.locking = some u

/-- A session other than `i` has locked `u` and makes the entry of admin `a`. -/
def Auditing (s : ReviewSys) (i a u : ℕ) : Prop :=
  ∃ j y, j ≠ i ∧ s.sessions.row j = some y ∧ y.pc.auditing = some (a, u)

/-- No request comes to wait to lock its target while one that waits so has its
target among the rows this one keeps, and keeps this one's target. And none comes
to make its entry while the admin of one that does so is its target, and its own
admin the target of one. -/
def Unentangled : Event ReviewOp → ReviewSys → Prop
  | .move i, s => ∀ x, s.sessions.row i = some x →
      (∀ t rows, x.pc.toLock = some (t, rows) →
        (∀ y u, Locking s i y u → u ∉ rows ∧ .totp u ∉ x.held) ∨ ∀ y u, Locking s i y u → ¬ Keeps y t) ∧
      ∀ a t, x.pc.toAudit = some (a, t) →
        (∀ b u, Auditing s i b u → b ≠ t) ∨ ∀ b u, Auditing s i b u → u ≠ a
  | _, _ => True

/-! ## Circles -/

/-- Nothing is locked of users for update. -/
def NoUser (held : List ReviewLock) : Prop := ∀ u, .user u ∉ held

/-- A session locks a user for update only as it comes to count, and updates an
admin's row before anything else. -/
def ReviewPc.Tidy (held : List ReviewLock) : ReviewPc → Prop
  | .totp .. => held = []
  | .recount _ t _ => ∀ u, .user u ∈ held → u = t
  | .audit _ _ counted => ∀ u, .user u ∈ held → ∃ c, counted = some (u, c)
  | .commit .. | .finished => True
  | _ => NoUser held

/-- One request waits for another of its kind: both to lock their targets, or
both for their entries. -/
def Blocks (s : ReviewSys) (i j : ℕ) : Prop :=
  i ≠ j ∧ ∃ x y, s.sessions.row i = some x ∧ s.sessions.row j = some y ∧
    ((∃ t u, x.pc.locking = some t ∧ y.pc.locking = some u ∧ Keeps y t) ∨
      ∃ a t b, x.pc.auditing = some (a, t) ∧ y.pc.auditing = some (b, a))

/-- The session makes its entry, with its target locked. -/
def Audits (s : ReviewSys) (i : ℕ) : Prop := ∃ x p, s.sessions.row i = some x ∧ x.pc.auditing = some p

section
variable {s : ReviewSys} {x : Transactions.Session ReviewLock ReviewPc} {i j u : ℕ}

/-- Who waits and has locked a user makes an entry. -/
theorem auditing_of_user (hx : x.pc.Tidy x.held) (hu : .user u ∈ x.held) {p : UserLock × ℕ} (hwants : x.pc.wants = some p) :
    ∃ a, x.pc.auditing = some (a, u) := by
  obtain ⟨pc, held⟩ := x
  cases pc with
  | audit a w counted =>
    obtain ⟨c, rfl⟩ := hx u hu
    exact ⟨a, rfl⟩
  | totp admin call =>
    obtain rfl : held = [] := hx
    cases hu
  | shareAuthor | shareTarget | auditDelete | lockTarget => exact absurd hu (hx u)
  | _ => cases hwants

/-- Who is still to update an admin's row has no lock. -/
theorem not_holds_of_totp (hx : x.pc.Tidy x.held) (hwants : x.pc.wants = some (.noKeyUpdate, u)) (m : UserLock) (v : ℕ) :
    ¬ HoldsUser x m v := by
  obtain ⟨pc, held⟩ := x
  cases pc with
  | totp admin call =>
    obtain rfl : held = [] := hx
    cases m <;> exact List.not_mem_nil
  | _ => cases hwants

theorem locking_of_wants (hwants : x.pc.wants = some (.update, u)) : x.pc.locking = some u := by
  obtain ⟨pc, held⟩ := x
  cases pc <;> cases hwants
  rfl

theorem auditing_of_locking (h : x.pc.locking = some u) : x.pc.auditing = none := by
  obtain ⟨pc, held⟩ := x
  cases pc <;> cases h
  rfl

theorem wants_of_auditing {a t : ℕ} (h : x.pc.auditing = some (a, t)) : x.pc.wants = some (.keyShare, a) := by
  obtain ⟨pc, held⟩ := x
  cases pc with
  | audit b w counted =>
    cases counted with
    | none => cases h
    | some c =>
      cases h
      rfl
  | _ => cases h

/-- A wait whose two ends are waited for and wait. -/
def Inside (s : ReviewSys) (i j : ℕ) : Prop := UserWaits s i j ∧ (∃ k, UserWaits s k i) ∧ ∃ k, UserWaits s j k

/-- A wait on the way round is for a row to be locked for update, or for one that
is, and then whoever has it makes an entry. -/
theorem Inside.cases (hs : ∀ i x, s.sessions.row i = some x → x.pc.Tidy x.held) (h : Inside s i j) :
    ∃ x y u, s.sessions.row i = some x ∧ s.sessions.row j = some y ∧
      ((x.pc.wants = some (.keyShare, u) ∧ ∃ b, y.pc.auditing = some (b, u)) ∨
        (x.pc.locking = some u ∧ (Keeps y u ∨ ∃ b, y.pc.auditing = some (b, u)))) := by
  obtain ⟨⟨-, x, y, m, m', u, hx, hy, hwants, hconf, hheld⟩, ⟨k, -, -, x', -, m₁, v, -, hx', -, -, hv⟩,
    l, -, y', -, n, -, w, hy', -, hnext, -⟩ := h
  rw [hx] at hx'
  cases hx'
  rw [hy] at hy'
  cases hy'
  refine ⟨x, y, u, hx, hy, ?_⟩
  cases m with
  | noKeyUpdate => exact absurd hv (not_holds_of_totp (hs i x hx) hwants m₁ v)
  | keyShare =>
    cases m' with
    | update => exact .inl ⟨hwants, auditing_of_user (hs j y hy) hheld hnext⟩
    | keyShare | noKeyUpdate => cases hconf
  | update =>
    refine .inr ⟨locking_of_wants hwants, ?_⟩
    cases m' with
    | keyShare => exact .inl (.inl hheld)
    | noKeyUpdate => exact .inl (.inr hheld)
    | update => exact .inr (auditing_of_user (hs j y hy) hheld hnext)

/-- So a circle of waits is one of requests that wait to lock their targets, or
of requests that make their entries. -/
theorem blocks_of_waits (hs : ∀ i x, s.sessions.row i = some x → x.pc.Tidy x.held)
    (h : ∃ i, TransGen (UserWaits s) i i) : ∃ i, TransGen (Blocks s) i i := by
  have hinside : ∃ i, TransGen (Inside s) i i := circle_mono (fun i j hij hi hj => ⟨hij, hi, hj⟩) h
  have hclosed : ∀ i j, Inside s i j → Audits s i → Audits s j := by
    rintro i j hij haudits
    obtain ⟨x, y, u, hx, hy, ⟨-, b, hb⟩ | ⟨hlocking, -⟩⟩ := hij.cases hs
    · exact ⟨y, _, hy, hb⟩
    · obtain ⟨x', p, hx', hp⟩ := haudits
      rw [hx] at hx'
      cases hx'
      rw [auditing_of_locking hlocking] at hp
      cases hp
  rcases circle_split hclosed hinside with hcircle | hcircle
  · refine circle_mono ?_ hcircle
    rintro i j ⟨hij, haudits, -⟩ - -
    obtain ⟨x, y, u, hx, hy, hwait⟩ := hij.cases hs
    obtain ⟨x', ⟨a, t⟩, hx', hp⟩ := haudits
    rw [hx] at hx'
    cases hx'
    refine ⟨hij.1.1, x, y, hx, hy, .inr ?_⟩
    rcases hwait with ⟨hwants, b, hb⟩ | ⟨hlocking, -⟩
    · rw [wants_of_auditing hp] at hwants
      cases hwants
      exact ⟨_, _, b, hp, hb⟩
    · rw [auditing_of_locking hlocking] at hp
      cases hp
  · refine circle_mono ?_ hcircle
    rintro i j ⟨hij, -, hj⟩ - ⟨k, hjk, -, hk⟩
    obtain ⟨x, y, u, hx, hy, ⟨-, b, hb⟩ | ⟨hlocking, hkeeps | ⟨b, hb⟩⟩⟩ := hij.cases hs
    · exact absurd ⟨y, _, hy, hb⟩ hj
    · obtain ⟨y', z, v, hy', hz, ⟨-, b, hb⟩ | ⟨hlocking', -⟩⟩ := hjk.cases hs
      · exact absurd ⟨z, _, hz, hb⟩ hk
      · rw [hy] at hy'
        cases hy'
        exact ⟨hij.1.1, x, y, hx, hy, .inl ⟨u, v, hlocking, hlocking', hkeeps⟩⟩
    · exact absurd ⟨y, _, hy, hb⟩ hj

end

/-! ## Runs -/

theorem NoUser.cons {held : List ReviewLock} {l : ReviewLock} (h : NoUser held) (hl : ∀ u, l ≠ .user u) :
    NoUser (l :: held) := by
  intro u hu
  rcases List.mem_cons.1 hu with heq | hu
  · exact hl u heq.symm
  · exact h u hu

section
variable {s t : ReviewSys} {i : ℕ} {x y : Transactions.Session ReviewLock ReviewPc} {u : ReviewStore}

theorem ReviewPc.tidy_closing {held : List ReviewLock} {admin : Option ℕ} {w : ReviewWrite} {counted : Option (ℕ × Counters)}
    (h : ∀ u, .user u ∈ held → ∃ c, counted = some (u, c)) : (ReviewPc.closing admin w counted).Tidy held := by
  cases admin with
  | none => trivial
  | some a => cases w <;> first | exact h | trivial

/-- A statement keeps a session tidy. -/
theorem ReviewPc.tidy_move (h : Moves ReviewPc.move s i x y u) (hx : x.pc.Tidy x.held) : y.pc.Tidy y.held := by
  obtain ⟨pc, held⟩ := x
  cases pc with
  | totp admin call =>
    obtain ⟨rfl, rfl⟩ := h.of_lock rfl
    obtain rfl : held = [] := hx
    intro u hu
    cases List.mem_singleton.1 hu
  | post =>
    obtain ⟨rfl, rfl⟩ := h.of_read rfl
    simp only
    split
    · trivial
    · split
      · trivial
      · exact hx
  | existing | unique | shareAuthor | shareTarget | auditDelete =>
    obtain ⟨rfl, rfl⟩ := h.of_read rfl
    simp only
    split
    all_goals first | exact hx | trivial
  | endpoint admin call =>
    cases call with
    | create r | delete k =>
      obtain ⟨rfl, rfl⟩ := h.of_read rfl
      simp only
      split
      all_goals first | exact hx | trivial
    | update k rating text =>
      obtain ⟨rfl, rfl⟩ := h.of_read rfl
      simp only
      split
      · trivial
      · generalize (if _ = rating then none else some rating) = new_rating
        generalize (if _ = text then none else some text) = new_text
        split
        · trivial
        · exact hx
  | insert admin r =>
    obtain ⟨author_id, target_id, deal_id, rating, text⟩ := r
    cases deal_id with
    | none =>
      obtain ⟨rfl, rfl⟩ := h.of_read rfl
      exact hx
    | some d =>
      obtain ⟨rfl, rfl⟩ := h.of_lock rfl
      exact NoUser.cons hx nofun
  | lockReview admin k w target_id =>
    obtain ⟨rfl, rfl⟩ := h.of_lock rfl
    exact NoUser.cons hx nofun
  | flushed admin k w target_id =>
    obtain ⟨rfl, rfl⟩ := h.of_read rfl
    simp only
    split
    · trivial
    · split
      · exact ReviewPc.tidy_closing fun u hu => absurd hu (hx u)
      · exact hx
  | lockTarget admin t w =>
    obtain ⟨rfl, rfl⟩ := h.of_lock rfl
    intro u hu
    rcases List.mem_cons.1 hu with heq | hu
    · cases heq
      rfl
    · exact absurd hu (hx u)
  | recount admin t w =>
    obtain ⟨rfl, rfl⟩ := h.of_read rfl
    refine ReviewPc.tidy_closing fun u hu => ?_
    rw [hx u hu]
    exact ⟨_, rfl⟩
  | audit admin w counted =>
    obtain ⟨rfl, rfl⟩ := h.of_read rfl
    simp only
    split <;> trivial
  | commit admin w counted =>
    obtain ⟨rfl, rfl⟩ := h.of_commit rfl
    trivial
  | finished => exact (h.of_done rfl).elim

/-- A session that comes to wait comes from where the condition looks at it. -/
structure ComesToWait (x y : Transactions.Session ReviewLock ReviewPc) : Prop where
  lock : ∀ t, y.pc.locking = some t → ∃ rows, x.pc.toLock = some (t, rows) ∧ ∀ v, Keeps y v → v ∈ rows ∨ .totp v ∈ x.held
  audit : ∀ p, y.pc.auditing = some p → x.pc.toAudit = some p

theorem ComesToWait.of_none (hlocking : y.pc.locking = none) (hauditing : y.pc.auditing = none) : ComesToWait x y where
  lock := fun t ht => by
    rw [hlocking] at ht
    cases ht
  audit := fun p hp => by
    rw [hauditing] at hp
    cases hp

theorem ReviewPc.locking_closing (admin : Option ℕ) (w : ReviewWrite) (counted : Option (ℕ × Counters)) :
    (ReviewPc.closing admin w counted).locking = none := by
  cases admin <;> cases w <;> rfl

theorem ReviewPc.auditing_closing_none (admin : Option ℕ) (w : ReviewWrite) :
    (ReviewPc.closing admin w none).auditing = none := by
  cases admin <;> cases w <;> rfl

theorem ReviewPc.comesToWait (h : Moves ReviewPc.move s i x y u) : ComesToWait x y := by
  obtain ⟨pc, held⟩ := x
  cases pc with
  | totp | lockReview | lockTarget =>
    obtain ⟨rfl, rfl⟩ := h.of_lock rfl
    exact .of_none rfl rfl
  | post =>
    obtain ⟨rfl, rfl⟩ := h.of_read rfl
    simp only
    split
    · exact .of_none rfl rfl
    · split <;> exact .of_none rfl rfl
  | existing | unique | shareAuthor | auditDelete | audit =>
    obtain ⟨rfl, rfl⟩ := h.of_read rfl
    simp only
    split <;> exact .of_none rfl rfl
  | endpoint admin call =>
    cases call with
    | create r | delete k =>
      obtain ⟨rfl, rfl⟩ := h.of_read rfl
      simp only
      split <;> exact .of_none rfl rfl
    | update k rating text =>
      obtain ⟨rfl, rfl⟩ := h.of_read rfl
      simp only
      split
      · exact .of_none rfl rfl
      · generalize (if _ = rating then none else some rating) = new_rating
        generalize (if _ = text then none else some text) = new_text
        split <;> exact .of_none rfl rfl
  | insert admin r =>
    obtain ⟨author_id, target_id, deal_id, rating, text⟩ := r
    cases deal_id with
    | none =>
      obtain ⟨rfl, rfl⟩ := h.of_read rfl
      exact .of_none rfl rfl
    | some d =>
      obtain ⟨rfl, rfl⟩ := h.of_lock rfl
      exact .of_none rfl rfl
  | shareTarget admin r =>
    obtain ⟨rfl, rfl⟩ := h.of_read rfl
    simp only
    split
    · refine ⟨fun t ht => ?_, fun p hp => (by cases hp)⟩
      cases ht
      exact ⟨_, rfl, fun v hv => hv⟩
    · exact .of_none rfl rfl
  | flushed admin k w target_id =>
    obtain ⟨rfl, rfl⟩ := h.of_read rfl
    simp only
    split
    · exact .of_none rfl rfl
    · split
      · exact .of_none (ReviewPc.locking_closing _ _ _) (ReviewPc.auditing_closing_none _ _)
      · next t' hfilter =>
        obtain ⟨rfl, -⟩ := Option.filter_eq_some_iff.1 hfilter
        refine ⟨fun t ht => ?_, fun p hp => (by cases hp)⟩
        cases ht
        exact ⟨_, rfl, fun v hv => hv⟩
  | recount admin t w =>
    obtain ⟨rfl, rfl⟩ := h.of_read rfl
    refine ⟨fun v hv => ?_, fun p hp => ?_⟩
    · rw [ReviewPc.locking_closing] at hv
      cases hv
    · cases admin with
      | none => cases hp
      | some a =>
        cases w with
        | delete => cases hp
        | insert | edit => exact hp
  | commit admin w counted =>
    obtain ⟨rfl, rfl⟩ := h.of_commit rfl
    exact .of_none rfl rfl
  | finished => exact (h.of_done rfl).elim

/-- No circle of waits, and every session is tidy. -/
structure LocksOk (s : ReviewSys) : Prop where
  tidy : ∀ i x, s.sessions.row i = some x → x.pc.Tidy x.held
  free : ¬ ∃ i, TransGen (Blocks s) i i

/-- Who is neither waited for nor waits is on no circle. -/
theorem free_of_blocks (hs : ¬ ∃ i, TransGen (Blocks s) i i)
    (h : ∀ i j, Blocks t i j → (∃ k, Blocks t k i) → (∃ k, Blocks t j k) → Blocks s i j) :
    ¬ ∃ i, TransGen (Blocks t) i i := fun hc => hs (circle_mono h hc)

/-- The session that has moved is not both waited for and waiting. -/
theorem not_between {k : ℕ} (hx : s.sessions.row k = some x) (hcomes : ComesToWait x y) (hok : Unentangled (.move k) s)
    (hbefore : ∃ i, Blocks ⟨u, s.sessions.set k y⟩ i k) (hafter : ∃ j, Blocks ⟨u, s.sessions.set k y⟩ k j) : False := by
  have hrow : ∀ i z, (s.sessions.set k y).row i = some z → i = k ∧ z = y ∨ i ≠ k ∧ s.sessions.row i = some z := by
    intro i z hi
    rw [Table.set_row hx] at hi
    split at hi
    · next hik =>
      cases hi
      exact .inl ⟨hik, rfl⟩
    · next hik => exact .inr ⟨hik, hi⟩
  obtain ⟨i, hik, z, y', hz, hy', hfirst⟩ := hbefore
  obtain ⟨j, hkj, y'', w, hy'', hw, hsecond⟩ := hafter
  obtain ⟨-, rfl⟩ | ⟨hne, -⟩ := hrow k y' hy'
  swap
  · exact hne rfl
  obtain ⟨-, rfl⟩ | ⟨hne, -⟩ := hrow k y'' hy''
  swap
  · exact hne rfl
  obtain ⟨heq, -⟩ | ⟨-, hz⟩ := hrow i z hz
  · exact hik heq
  obtain ⟨heq, -⟩ | ⟨-, hw⟩ := hrow j w hw
  · exact hkj heq.symm
  obtain ⟨hlock, haudit⟩ := hok x hx
  rcases hfirst with ⟨t, v, hlocking, hown, hkeeps⟩ | ⟨a, t, b, hauditing, hown⟩
  · rcases hsecond with ⟨t', v', hown', hlocking', hkeeps'⟩ | ⟨a, t', b, hown', -⟩
    · rw [hown] at hown'
      cases hown'
      obtain ⟨rows, hto, hrows⟩ := hcomes.lock _ hown
      rcases hlock _ rows hto with hno | hno
      · obtain ⟨hno, hno'⟩ := hno z t ⟨i, hik, hz, hlocking⟩
        exact (hrows t hkeeps).elim hno hno'
      · exact hno w _ ⟨j, hkj.symm, hw, hlocking'⟩ hkeeps'
    · rw [auditing_of_locking hown] at hown'
      cases hown'
  · rcases hsecond with ⟨t', v', hown', -, -⟩ | ⟨a', t', b', hown', hauditing'⟩
    · rw [auditing_of_locking hown'] at hown
      cases hown
    · rw [hown] at hown'
      cases hown'
      rcases haudit _ _ (hcomes.audit _ hown) with hno | hno
      · exact hno a t ⟨i, z, hik, hz, hauditing⟩ rfl
      · exact hno b' _ ⟨j, w, hkj.symm, hw, hauditing'⟩ rfl

theorem ReviewOp.entry_calm (op : ReviewOp) : op.entry.locking = none ∧ op.entry.auditing = none := by
  cases op with
  | post => exact ⟨rfl, rfl⟩
  | byAdmin admin code call => cases code <;> exact ⟨rfl, rfl⟩

theorem LocksOk.step {e : Event ReviewOp} (hs : LocksOk s) (hok : Unentangled e s) (h : SharingStep e s t) : LocksOk t := by
  have htidy : ∀ i x, t.sessions.row i = some x → x.pc.Tidy x.held := by
    refine h.1.all (L := fun _ _ x => x.pc.Tidy x.held) hs.tidy ?_ ?_ ?_
    · intro op _
      cases op with
      | post => exact fun u => List.not_mem_nil
      | byAdmin admin code call =>
        cases code
        · exact fun u => List.not_mem_nil
        · rfl
    · intro i x y u _ hx hm
      exact ⟨ReviewPc.tidy_move hm (hs.tidy i x hx), fun j z _ hj => hs.tidy j z hj⟩
    · exact fun u _ _ j z hj => hs.tidy j z hj
  refine ⟨htidy, ?_⟩
  obtain ⟨hstep, -⟩ := h
  cases hstep with
  | @start _ op =>
    -- the new session waits neither to lock nor to make an entry
    refine free_of_blocks hs.free ?_
    rintro i j ⟨hne, x, y, hx, hy, hwait⟩ - -
    obtain ⟨hlocking, hauditing⟩ := op.entry_calm
    rw [Table.insert_row] at hx hy
    split at hx
    · cases hx
      rcases hwait with ⟨t, u, ht, -⟩ | ⟨a, t, b, ht, -⟩
      · rw [hlocking] at ht
        cases ht
      · rw [hauditing] at ht
        cases ht
    · split at hy
      · cases hy
        rcases hwait with ⟨t, u, -, hu, -⟩ | ⟨a, t, b, -, hb⟩
        · rw [hlocking] at hu
          cases hu
        · rw [hauditing] at hb
          cases hb
      · exact ⟨hne, x, y, hx, hy, hwait⟩
  | @stop _ k =>
    refine free_of_blocks hs.free ?_
    rintro i j ⟨hne, x, y, hx, hy, hwait⟩ - -
    rw [Table.erase_row] at hx hy
    split at hx
    · cases hx
    · split at hy
      · cases hy
      · exact ⟨hne, x, y, hx, hy, hwait⟩
  | other h =>
    exact free_of_blocks hs.free fun i j hij _ _ => hij
  | @move _ k x y u hx hm =>
    refine free_of_blocks hs.free ?_
    rintro i j hij hbefore hafter
    have hcomes := ReviewPc.comesToWait hm
    by_cases hik : i = k
    · subst i
      exact (not_between hx hcomes hok hbefore ⟨j, hij⟩).elim
    by_cases hjk : j = k
    · subst j
      exact (not_between hx hcomes hok ⟨i, hij⟩ hafter).elim
    obtain ⟨hne, z, w, hz, hw, hwait⟩ := hij
    rw [Table.set_row_ne hik] at hz
    rw [Table.set_row_ne hjk] at hw
    exact ⟨hne, z, w, hz, hw, hwait⟩

/-- Review requests never wait for each other in a circle, in any run in which
none comes to wait between two others. -/
theorem reviews_no_deadlock {start : ReviewStore} (h : Reach SharingStep Unentangled (.idle start) t) :
    ¬ ∃ i, TransGen (UserWaits t) i i := by
  have hstart : LocksOk (.idle start) := by
    refine ⟨fun i x hx => (by cases hx), ?_⟩
    rintro ⟨i, hi⟩
    obtain ⟨j, ⟨-, x, y, hx, -⟩, -⟩ := TransGen.head'_iff.1 hi
    cases hx
  have hok := h.invariant (I := LocksOk) hstart fun e s t hs hok hstep => hs.step hok hstep
  exact fun hc => hok.free (blocks_of_waits hok.tidy hc)

end

/-! ## Two reviews -/

/-- Nobody has a lock on the user that conflicts. -/
theorem admitted_of_check {s : ReviewSys} {i : ℕ} {x : Transactions.Session ReviewLock ReviewPc}
    (hx : s.sessions.row i = some x)
    (h : (List.range s.sessions.next).all (fun j => j = i || (s.sessions.row j).all fun y => x.pc.wants.all fun p =>
      (!p.1.conflicts .keyShare || p.2 ∉ y.pc.shared) && (!p.1.conflicts .noKeyUpdate || .totp p.2 ∉ y.held) &&
        .user p.2 ∉ y.held) = true) : Admitted (.move i) s := by
  intro x' m u hx' hwants j y m' hne hy hconf hheld
  rw [hx] at hx'
  cases hx'
  have hall := List.all_eq_true.1 h j (List.mem_range.2 (Table.lt_next hy))
  rw [hy, hwants] at hall
  cases m' with
  | keyShare => simp_all [HoldsUser]
  | noKeyUpdate => simp_all [HoldsUser]
  | update => simp_all [HoldsUser]

/-- Nobody has a lock on the row that the session comes to wait for, and nobody else makes an entry. -/
theorem unentangled_of_check {s : ReviewSys} {i : ℕ} {x : Transactions.Session ReviewLock ReviewPc}
    (hx : s.sessions.row i = some x)
    (h : (List.range s.sessions.next).all (fun j => j = i || (s.sessions.row j).all fun y =>
      x.pc.toLock.all (fun p => p.1 ∉ y.pc.shared && .totp p.1 ∉ y.held) &&
        (x.pc.toAudit.isNone || y.pc.auditing.isNone)) = true) : Unentangled (.move i) s := by
  intro x' hx'
  rw [hx] at hx'
  cases hx'
  refine ⟨fun t rows ht => .inr ?_, fun a t ht => .inr ?_⟩
  · rintro y u ⟨j, hne, hy, -⟩ hkeeps
    have hall := List.all_eq_true.1 h j (List.mem_range.2 (Table.lt_next hy))
    rw [hy, ht] at hall
    simp_all [Keeps]
  · rintro b u ⟨j, y, hne, hy, hauditing⟩
    have hall := List.all_eq_true.1 h j (List.mem_range.2 (Table.lt_next hy))
    rw [hy, ht] at hall
    simp_all

/-- User 1 reviews user 3 while admin 4 posts a review of user 2 for the same
author: the one comes to lock its target, the other to make its entry, and
neither waits for the other. -/
theorem sampleReviews_no_deadlock : ∃ t, Reach SharingStep Unentangled (.idle sampleReviews) t ∧
    (∃ x, t.sessions.row 1 = some x ∧ x.pc.locking = some 3 ∧ Keeps x 1) ∧
    (∃ x, t.sessions.row 2 = some x ∧ x.pc.auditing = some (4, 2) ∧ Keeps x 1 ∧ Keeps x 4) ∧
    ¬ ∃ i, TransGen (UserWaits t) i i := by
  have ok : ∀ {s : ReviewSys} {i : ℕ} {x}, s.sessions.row i = some x → _ → _ →
      Unentangled (.move i) s ∧ Admitted (.move i) s :=
    fun hx h h' => ⟨unentangled_of_check hx h, admitted_of_check hx h'⟩
  have h₀ : Reach ReviewStep (fun e s => Unentangled e s ∧ Admitted e s) (.idle sampleReviews) (.idle sampleReviews) := .refl
  have h₁ := run_start h₀ (.post 1 3 (some 1) 5 "") ⟨trivial, trivial⟩
  have h₂ := run_start h₁ (.byAdmin 4 true (.create (sampleReview 1 2 3))) ⟨trivial, trivial⟩
  have h₃ := run_read (p := .existing (sampleReview 1 3 1) 1) h₂ 1 rfl rfl (by decide +kernel)
    (ok rfl (by decide) (by decide))
  have h₄ := run_lock h₃ 2 rfl rfl (Sys.freeFor_of_check (by decide)) (ok rfl (by decide) (by decide))
  have h₅ := run_read (p := .insert none (sampleReview 1 3 1)) h₄ 1 rfl rfl (by decide +kernel)
    (ok rfl (by decide) (by decide))
  have h₆ := run_read (p := .insert (some 4) (sampleReview 1 2 3)) h₅ 2 rfl rfl (by decide +kernel)
    (ok rfl (by decide) (by decide))
  have h₇ := run_lock h₆ 1 rfl rfl (Sys.freeFor_of_check (by decide)) (ok rfl (by decide) (by decide))
  have h₈ := run_lock h₇ 2 rfl rfl (Sys.freeFor_of_check (by decide)) (ok rfl (by decide) (by decide))
  have h₉ := run_read (p := .shareAuthor none (sampleReview 1 3 1)) h₈ 1 rfl rfl (by decide +kernel)
    (ok rfl (by decide) (by decide))
  have h₁₀ := run_read (p := .shareAuthor (some 4) (sampleReview 1 2 3)) h₉ 2 rfl rfl (by decide +kernel)
    (ok rfl (by decide) (by decide))
  have h₁₁ := run_read (p := .shareTarget none (sampleReview 1 3 1)) h₁₀ 1 rfl rfl (by decide +kernel)
    (ok rfl (by decide) (by decide))
  have h₁₂ := run_read (p := .shareTarget (some 4) (sampleReview 1 2 3)) h₁₁ 2 rfl rfl (by decide +kernel)
    (ok rfl (by decide) (by decide))
  have h₁₃ := run_read (p := .lockTarget none 3 (.insert (sampleReview 1 3 1))) h₁₂ 1 rfl rfl (by decide +kernel)
    (ok rfl (by decide) (by decide))
  have h₁₄ := run_read (p := .lockTarget (some 4) 2 (.insert (sampleReview 1 2 3))) h₁₃ 2 rfl rfl (by decide +kernel)
    (ok rfl (by decide) (by decide))
  have h₁₅ := run_lock h₁₄ 2 rfl rfl (Sys.freeFor_of_check (by decide)) (ok rfl (by decide) (by decide))
  have h₁₆ := run_read (p := .audit 4 (.insert (sampleReview 1 2 3)) (some (2, ⟨1, 0⟩))) h₁₅ 2 rfl rfl (by decide +kernel)
    (ok rfl (by decide) (by decide))
  exact ⟨_, h₁₆.guarded, ⟨_, rfl, rfl, .inl (by decide)⟩, ⟨_, rfl, rfl, .inl (by decide), .inr (by decide)⟩,
    reviews_no_deadlock h₁₆.guarded⟩

/-- Two reviews of user 3: each shares the row that the other waits to lock. -/
theorem reviews_deadlock : ¬ ∀ (start : ReviewStore) (t : ReviewSys), Reach SharingStep Free (.idle start) t →
    ¬ ∃ i, TransGen (UserWaits t) i i := by
  intro hall
  have h₀ : Reach ReviewStep (fun e s => Free e s ∧ Admitted e s) (.idle sampleReviews) (.idle sampleReviews) := .refl
  have h₁ := run_start h₀ (.post 1 3 (some 1) 5 "") ⟨trivial, trivial⟩
  have h₂ := run_start h₁ (.post 2 3 (some 2) 5 "") ⟨trivial, trivial⟩
  have h₃ := run_read (p := .existing (sampleReview 1 3 1) 1) h₂ 1 rfl rfl (by decide +kernel)
    ⟨trivial, admitted_of_check rfl (by decide)⟩
  have h₄ := run_read (p := .existing (sampleReview 2 3 2) 2) h₃ 2 rfl rfl (by decide +kernel)
    ⟨trivial, admitted_of_check rfl (by decide)⟩
  have h₅ := run_read (p := .insert none (sampleReview 1 3 1)) h₄ 1 rfl rfl (by decide +kernel)
    ⟨trivial, admitted_of_check rfl (by decide)⟩
  have h₆ := run_read (p := .insert none (sampleReview 2 3 2)) h₅ 2 rfl rfl (by decide +kernel)
    ⟨trivial, admitted_of_check rfl (by decide)⟩
  have h₇ := run_lock h₆ 1 rfl rfl (Sys.freeFor_of_check (by decide)) ⟨trivial, admitted_of_check rfl (by decide)⟩
  have h₈ := run_lock h₇ 2 rfl rfl (Sys.freeFor_of_check (by decide)) ⟨trivial, admitted_of_check rfl (by decide)⟩
  have h₉ := run_read (p := .shareAuthor none (sampleReview 1 3 1)) h₈ 1 rfl rfl (by decide +kernel)
    ⟨trivial, admitted_of_check rfl (by decide)⟩
  have h₁₀ := run_read (p := .shareAuthor none (sampleReview 2 3 2)) h₉ 2 rfl rfl (by decide +kernel)
    ⟨trivial, admitted_of_check rfl (by decide)⟩
  have h₁₁ := run_read (p := .shareTarget none (sampleReview 1 3 1)) h₁₀ 1 rfl rfl (by decide +kernel)
    ⟨trivial, admitted_of_check rfl (by decide)⟩
  have h₁₂ := run_read (p := .shareTarget none (sampleReview 2 3 2)) h₁₁ 2 rfl rfl (by decide +kernel)
    ⟨trivial, admitted_of_check rfl (by decide)⟩
  have h₁₃ := run_read (p := .lockTarget none 3 (.insert (sampleReview 1 3 1))) h₁₂ 1 rfl rfl (by decide +kernel)
    ⟨trivial, admitted_of_check rfl (by decide)⟩
  have h₁₄ := run_read (p := .lockTarget none 3 (.insert (sampleReview 2 3 2))) h₁₃ 2 rfl rfl (by decide +kernel)
    ⟨trivial, admitted_of_check rfl (by decide)⟩
  refine hall _ _ h₁₄.guarded ⟨1, .tail (b := 2) (.single ?_) ?_⟩
  · exact ⟨by decide, _, _, .update, .keyShare, 3, rfl, rfl, rfl, rfl, (by decide : 3 ∈ [2, 3])⟩
  · exact ⟨by decide, _, _, .update, .keyShare, 3, rfl, rfl, rfl, rfl, (by decide : 3 ∈ [1, 3])⟩

end Garant
