import Garant.PinSessions
import Garant.Totp
import Garant.Transfers
/-!
# Revocation holds across requests

A session token carries the epoch its user had when it was handed out, and a
revoking operation adds one to the epoch. `sessions_revoked`: in every run in
which each increment is written over the epoch it was computed from, no token
handed out before a revoking commit is accepted after it. `revocation_lost`: two
increments of the same value make one, and the token in between stays good.
-/
open Transactions

namespace Garant

/-! ## What a commit does to the epochs -/

/-- The epochs that the request has changed are still those it loaded. -/
def UpToDate (seen new cur : UserAccount) : Prop := ∀ k, new.epoch k ≠ seen.epoch k → cur.epoch k = seen.epoch k

/-- A change of a user that adds one to the epoch of each kind that `deeds`
says is revoked. -/
structure Revokes (user_id : ℕ) (seen new : UserAccount) (deeds : List Deed) : Prop where
  by_one : ∀ k, new.epoch k = seen.epoch k ∨ new.epoch k = seen.epoch k + 1
  revoked : ∀ k u, .revoked k u ∈ deeds → u = user_id ∧ new.epoch k = seen.epoch k + 1
  issued : ∀ k token, .issued k token ∉ deeds

/-- The user's epoch is at least `n` for as long as the user exists. -/
def AccountStore.Reached (s : AccountStore) (user_id : ℕ) (k : SessionKind) (n : ℕ) : Prop :=
  user_id < s.users.next ∧ ∀ a, s.users.row user_id = some a → n ≤ a.epoch k

/-- What a statement may do: no epoch goes down, those of revoked sessions go
up, and a token is handed out with an epoch that its user has reached. -/
structure Bumps (s u : AccountStore) (deeds : List Deed) : Prop where
  history : u.history = s.history ++ deeds
  next : s.users.next ≤ u.users.next
  rows : ∀ i b, i < s.users.next → u.users.row i = some b → ∃ a, s.users.row i = some a ∧
    ∀ k, a.epoch k ≤ b.epoch k ∧ (.revoked k i ∈ deeds → a.epoch k < b.epoch k)
  issued : ∀ k token, .issued k token ∈ deeds → deeds = [.issued k token] ∧ u.Reached token.user_id k token.epoch

section
variable {s u : AccountStore} {seen new cur : UserAccount} {deeds : List Deed} {user_id : ℕ} {k : SessionKind}

@[simp] theorem flush_epoch : (flush seen new cur).epoch k = column (seen.epoch k) (new.epoch k) (cur.epoch k) := by
  cases k <;> rfl

theorem UpToDate.flush_epoch (h : UpToDate seen new cur) (hne : new.epoch k ≠ seen.epoch k) :
    (flush seen new cur).epoch k = new.epoch k ∧ cur.epoch k = seen.epoch k :=
  ⟨by rw [Garant.flush_epoch, column_changed hne], h k hne⟩

theorem Revokes.le_epoch (h : Revokes user_id seen new deeds) (hup : UpToDate seen new cur) :
    cur.epoch k ≤ (flush seen new cur).epoch k := by
  rcases h.by_one k with heq | hone
  · rw [Garant.flush_epoch, heq, column_unchanged]
  · obtain ⟨hnew, hcur⟩ := hup.flush_epoch (k := k) (by omega)
    omega

theorem Revokes.lt_epoch (h : Revokes user_id seen new deeds) (hup : UpToDate seen new cur)
    (hr : .revoked k user_id ∈ deeds) : cur.epoch k < (flush seen new cur).epoch k := by
  obtain ⟨-, hone⟩ := h.revoked k user_id hr
  obtain ⟨hnew, hcur⟩ := hup.flush_epoch (k := k) (by omega)
  omega

/-- The epoch that a request hands out after its commit is one the user has. -/
theorem Revokes.new_le (h : Revokes user_id seen new deeds) (hup : UpToDate seen new cur)
    (hseen : seen.epoch k ≤ cur.epoch k) : new.epoch k ≤ (flush seen new cur).epoch k := by
  rcases h.by_one k with heq | hone
  · rw [Garant.flush_epoch, heq, column_unchanged]
    exact hseen
  · exact (hup.flush_epoch (k := k) (by omega)).1.ge

theorem Revokes.none (h : ∀ k, new.epoch k = seen.epoch k) : Revokes user_id seen new [] :=
  ⟨fun k => .inl (h k), nofun, nofun⟩

theorem Bumps.reached {n : ℕ} (h : Bumps s u deeds) (hs : s.Reached user_id k n) : u.Reached user_id k n := by
  refine ⟨hs.1.trans_le h.next, fun b hb => ?_⟩
  obtain ⟨a, ha, hk⟩ := h.rows user_id b hs.1 hb
  exact (hs.2 a ha).trans (hk k).1

/-- A statement that leaves the users alone and neither hands out nor revokes. -/
theorem Bumps.of_users (husers : u.users = s.users) (hhist : u.history = s.history ++ deeds)
    (hr : ∀ k i, .revoked k i ∉ deeds) (hi : ∀ k token, .issued k token ∉ deeds) : Bumps s u deeds where
  history := hhist
  next := husers ▸ le_rfl
  rows := fun i b _ hb => ⟨b, husers ▸ hb, fun k => ⟨le_rfl, fun hd => absurd hd (hr k i)⟩⟩
  issued := fun k token hd => absurd hd (hi k token)

theorem Bumps.refl : Bumps s s [] := .of_users rfl (List.append_nil _).symm nofun nofun

theorem Bumps.note {token : SessionToken} (h : s.Reached token.user_id k token.epoch) :
    Bumps s (s.note [.issued k token]) [.issued k token] where
  history := rfl
  next := le_rfl
  rows := fun i b _ hb => ⟨b, hb, fun k => ⟨le_rfl, nofun⟩⟩
  issued := by
    intro k' token' hd
    cases List.mem_singleton.1 hd
    exact ⟨rfl, h⟩

/-- Writing back a user whose epochs were up to date. -/
theorem Bumps.flush {w : AccountStore} (h : Revokes user_id seen new deeds)
    (hup : ∀ cur, s.users.row user_id = some cur → UpToDate seen new cur) (hnext : w.users.next = s.users.next)
    (hrows : ∀ i a, w.users.row i = some a → s.users.row i = some a)
    (husers : u.users = (w.flushUser user_id seen new).users) (hhist : u.history = s.history ++ deeds) :
    Bumps s u deeds where
  history := hhist
  next := by
    rw [husers, ← hnext]
    unfold AccountStore.flushUser
    split <;> exact le_rfl
  rows := by
    intro i b _ hb
    rw [husers] at hb
    obtain ⟨a, ha, rfl⟩ := AccountStore.flushUser_row hb
    refine ⟨a, hrows i a ha, fun k => ?_⟩
    split
    · subst i
      have hcur := hup a (hrows _ a ha)
      exact ⟨h.le_epoch hcur, h.lt_epoch hcur⟩
    · next hne => exact ⟨le_rfl, fun hd => absurd (h.revoked k i hd).1 hne⟩
  issued := fun k token hd => absurd hd (h.issued k token)

end

/-! ## PIN requests -/

section
variable {hashes : PinHashes} {s u : AccountStore} {user : UserAccount} {user_id : ℕ} {o : PinOutcome}

theorem wrongAttempt_epoch {settings : AccountSettings} {now : Time} (k : SessionKind) :
    (wrongAttempt settings now user).epoch k = user.epoch k := by
  unfold wrongAttempt
  split <;> cases k <;> rfl

/-- An operation that adds one to the PIN epoch only. -/
theorem Revokes.pin {new : UserAccount} (hpin : new.pin_session_epoch = user.pin_session_epoch + 1)
    (htotp : new.totp_session_epoch = user.totp_session_epoch) : Revokes user_id user new [.revoked .pin user_id] where
  by_one := by
    rintro (_ | _)
    · exact .inr hpin
    · exact .inl htotp
  revoked := by
    intro k u hd
    cases List.mem_singleton.1 hd
    exact ⟨rfl, hpin⟩
  issued := nofun

theorem pinSetup_revokes {pin : String} (h : pinSetup hashes s user pin = some o) : Revokes user_id user o.new o.deeds := by
  unfold pinSetup at h
  split at h
  · cases h
  split at h <;> cases h
  exact .none fun k => by cases k <;> rfl

theorem pinCheck_revokes {pin : String} (h : (pinCheck hashes s user pin).outcome = some o) :
    Revokes user_id user o.new o.deeds := by
  unfold pinCheck at h
  split at h
  · cases h
  split at h
  · cases h
  split at h <;> cases h
  · exact .none fun k => by cases k <;> rfl
  · exact .none wrongAttempt_epoch

theorem pinChange_revokes {old_pin new_pin : String}
    (h : (pinChange hashes s user_id user old_pin new_pin).outcome = some o) :
    Revokes user_id user o.new o.deeds := by
  unfold pinChange at h
  split at h
  · cases h
  split at h
  · cases h
  split at h
  · simp only at h
    split at h <;> cases h
    exact .pin rfl rfl
  · cases h
    exact .none wrongAttempt_epoch

theorem pinResetConfirm_revokes {code new_pin : String}
    (h : (pinResetConfirm hashes s user_id user code new_pin).outcome = some o) : Revokes user_id user o.new o.deeds := by
  unfold pinResetConfirm at h
  split at h
  · cases h
  split at h
  · split at h
    · cases h
    split at h
    · cases h
      exact .none fun k => by cases k <;> rfl
    split at h
    · simp only at h
      split at h <;> cases h
      exact .pin rfl rfl
    · cases h
      exact .none wrongAttempt_epoch
  · cases h

theorem resetPin_revokes (h : resetPin user_id user = some o) : Revokes user_id user o.new o.deeds := by
  unfold resetPin at h
  split at h <;> cases h
  exact .pin rfl rfl

theorem invalidateSessions_revokes (h : invalidateSessions user_id user = some o) :
    Revokes user_id user o.new o.deeds := by
  cases h
  refine ⟨fun k => .inr (by cases k <;> rfl), fun k u hd => ?_, nofun⟩
  simp only [List.mem_cons, List.not_mem_nil, or_false] at hd
  rcases hd with hd | hd <;> cases hd <;> exact ⟨rfl, rfl⟩

/-- Each PIN operation adds one to the epochs of the sessions it revokes, and to no other. -/
theorem PinOp.decision_revokes {op : PinOp} (h : (op.decision hashes s user).outcome = some o) :
    Revokes op.user_id user o.new o.deeds := by
  cases op with
  | setup => exact pinSetup_revokes h
  | check => exact pinCheck_revokes h
  | change => exact pinChange_revokes h
  | resetConfirm => exact pinResetConfirm_revokes h
  | resetPin => exact resetPin_revokes h
  | invalidateSessions => exact invalidateSessions_revokes h

end

/-- A row that a request has loaded: its epochs were the user's once. -/
def AccountStore.Knows (s : AccountStore) (user_id : ℕ) (a : UserAccount) : Prop := ∀ k, s.Reached user_id k (a.epoch k)

/-- What a request is about to write back. -/
def UserWrite.Sound (s : AccountStore) (w : UserWrite) : Prop :=
  s.Knows w.user_id w.seen ∧ Revokes w.user_id w.seen w.new (w.deeds ++ w.after)

/-- Where the commit, if it is one, writes over what it was computed from. -/
def UserWrite.UpToDate (s : AccountStore) (w : UserWrite) : Prop :=
  ∀ cur, s.users.row w.user_id = some cur → Garant.UpToDate w.seen w.new cur

section
variable {s u : AccountStore} {user_id : ℕ} {a : UserAccount} {w : UserWrite} {deeds : List Deed}

theorem AccountStore.knows_of_row (h : s.users.row user_id = some a) : s.Knows user_id a := by
  refine fun k => ⟨Table.lt_next h, fun b hb => ?_⟩
  rw [h] at hb
  cases hb
  exact le_rfl

theorem Bumps.knows (h : Bumps s u deeds) (hs : s.Knows user_id a) : u.Knows user_id a := fun k => h.reached (hs k)

theorem UserWrite.Sound.mono (h : w.Sound s) (hb : Bumps s u deeds) : w.Sound u := ⟨hb.knows h.1, h.2⟩

/-- The commit of a write that is up to date. -/
theorem UserWrite.commit_bumps (h : Revokes w.user_id w.seen w.new (w.deeds ++ w.after)) (hup : w.UpToDate s) :
    ∃ deeds, Bumps s (w.commit s) deeds := by
  unfold UserWrite.commit
  split
  · exact ⟨[], .refl⟩
  · next cur hcur =>
    generalize hre : (if (flush w.seen w.new cur).totp_secret = cur.totp_secret then ([] : List Deed) else
      [.rekeyed w.user_id]) = rekeyed
    have hrekeyed : ∀ d ∈ rekeyed, d = .rekeyed w.user_id := by
      subst hre
      split
      · nofun
      · exact fun d => List.mem_singleton.1
    have hmem : ∀ d, d ∈ w.deeds ++ rekeyed ++ w.after → d = .rekeyed w.user_id ∨ d ∈ w.deeds ++ w.after := by
      intro d hd
      simp only [List.mem_append] at hd ⊢
      rcases hd with (hd | hd) | hd
      · exact .inr (.inl hd)
      · exact .inl (hrekeyed d hd)
      · exact .inr (.inr hd)
    refine ⟨w.deeds ++ rekeyed ++ w.after, .flush (w := s) ⟨h.by_one, fun k u hd => ?_, fun k token hd => ?_⟩ hup rfl
      (fun i a ha => ha) rfl ?_⟩
    · rcases hmem _ hd with hd | hd
      · cases hd
      · exact h.revoked k u hd
    · rcases hmem _ hd with hd | hd
      · cases hd
      · exact h.issued k token hd
    · rw [AccountStore.note, AccountStore.flushUser]
      split <;> rfl

/-- The epoch that the request then hands out. -/
theorem UserWrite.commit_reached (h : w.Sound s) (hup : w.UpToDate s) (k : SessionKind)
    (hrow : (s.users.row w.user_id).isSome) : (w.commit s).Reached w.user_id k (w.new.epoch k) := by
  obtain ⟨cur, hcur⟩ := Option.isSome_iff_exists.1 hrow
  have hrow' : (w.commit s).users = s.users.set w.user_id (flush w.seen w.new cur) := by
    simp only [UserWrite.commit, AccountStore.flushUser, hcur, AccountStore.note]
  refine ⟨hrow' ▸ (h.1 k).1, fun b hb => ?_⟩
  rw [hrow', Table.set_row hcur, if_pos rfl] at hb
  cases hb
  exact h.2.new_le (hup cur hcur) ((h.1 k).2 cur hcur)

end

/-- The write that the next statement commits. -/
def PinPc.write : PinPc → Option UserWrite
  | .commit w _ => some w
  | _ => none

/-- What a PIN request holds is sound. -/
def PinPc.Sound (s : AccountStore) : PinPc → Prop
  | .update w _ | .commit w _ => w.Sound s
  | .mint user_id epoch => s.Reached user_id .pin epoch
  | _ => True

section
variable {hashes : PinHashes} {s u : AccountStore} {pc p : PinPc} {deeds : List Deed}

theorem PinPc.Sound.mono (h : pc.Sound s) (hb : Bumps s u deeds) : pc.Sound u := by
  cases pc with
  | update w mint | commit w mint => exact UserWrite.Sound.mono h hb
  | mint => exact hb.reached h
  | load | lockUser | reload | finished => trivial

theorem PinPc.decided_sound {op : PinOp} {user : UserAccount} (hrow : s.users.row op.user_id = some user) :
    (PinPc.decided hashes op s user).Sound s := by
  unfold PinPc.decided
  split
  · trivial
  · next o ho => exact ⟨AccountStore.knows_of_row hrow, (List.append_nil _).symm ▸ PinOp.decision_revokes ho⟩

theorem PinPc.does (h : (pc.move hashes).Does s p u) (hs : pc.Sound s) (hup : ∀ w, pc.write = some w → w.UpToDate s) :
    p.Sound u ∧ ∃ deeds, Bumps s u deeds := by
  cases pc with
  | load op =>
    obtain ⟨rfl, rfl⟩ := h
    refine ⟨?_, [], .refl⟩
    beta_reduce
    split
    · trivial
    · next user hrow =>
      split
      · split <;> trivial
      · exact decided_sound hrow
  | reload op =>
    obtain ⟨rfl, rfl⟩ := h
    refine ⟨?_, [], .refl⟩
    beta_reduce
    split
    · trivial
    · next user hrow => exact decided_sound hrow
  | lockUser op =>
    obtain ⟨rfl, rfl⟩ := h
    exact ⟨trivial, [], .refl⟩
  | update w mint =>
    obtain ⟨rfl, rfl⟩ := h
    exact ⟨hs, [], .refl⟩
  | commit w minting =>
    obtain ⟨rfl, rfl⟩ := h
    refine ⟨?_, UserWrite.commit_bumps hs.2 (hup w rfl)⟩
    beta_reduce
    split
    · next hmint => exact UserWrite.commit_reached hs (hup w rfl) .pin hmint.2
    · trivial
  | mint user_id epoch =>
    obtain ⟨rfl, rfl⟩ := h
    exact ⟨trivial, _, .note hs⟩
  | finished => exact h.elim

end

/-! ## TOTP requests -/

section
variable {hotp : String → ℤ → String} {now : Time} {user_id : ℕ} {user : UserAccount} {w : UserWrite}

/-- A write that adds one to the TOTP epoch only, and what it says besides. -/
theorem Revokes.totp {new : UserAccount} {deeds : List Deed}
    (htotp : new.totp_session_epoch = user.totp_session_epoch + 1) (hpin : new.pin_session_epoch = user.pin_session_epoch)
    (hd : ∀ d ∈ deeds, d = .revoked .totp user_id ∨ ∃ secret c, d = .accepted user_id secret c) :
    Revokes user_id user new deeds where
  by_one := by
    rintro (_ | _)
    · exact .inl hpin
    · exact .inr htotp
  revoked := by
    intro k u hmem
    rcases hd _ hmem with h | ⟨secret, c, h⟩ <;> cases h
    exact ⟨rfl, htotp⟩
  issued := by
    intro k token hmem
    rcases hd _ hmem with h | ⟨secret, c, h⟩ <;> cases h

theorem enableWith_revokes {secret code : String} {deeds : List Deed}
    (h : enableWith hotp now user_id user secret code deeds = some w)
    (hd : ∀ d ∈ deeds, ∃ secret c, d = .accepted user_id secret c) :
    (w.user_id = user_id ∧ w.seen = user) ∧ Revokes user_id user w.new (w.deeds ++ w.after) := by
  obtain ⟨c, -, rfl⟩ := Option.map_eq_some_iff.1 h
  refine ⟨⟨rfl, rfl⟩, .totp rfl rfl fun d hmem => ?_⟩
  simp only [List.mem_append, List.mem_cons, List.not_mem_nil, or_false] at hmem
  rcases hmem with hmem | rfl | rfl
  · exact .inr (hd d hmem)
  · exact .inr ⟨secret, c, rfl⟩
  · exact .inl rfl

theorem enableTotp_revokes {form : EnableForm} (h : enableTotp hotp now user_id user form = some w) :
    (w.user_id = user_id ∧ w.seen = user) ∧ Revokes user_id user w.new (w.deeds ++ w.after) := by
  unfold enableTotp at h
  split at h
  · simp only [rotateTotp, Option.bind_eq_bind, Option.bind_eq_some_iff] at h
    obtain ⟨current_code, -, current_counter, -, secret, -, h⟩ := h
    split at h
    · cases h
    split at h
    · cases h
    refine enableWith_revokes h fun d hd => ?_
    exact ⟨_, _, List.mem_singleton.1 hd⟩
  · simp only [enrolTotp, Option.bind_eq_bind, Option.bind_eq_some_iff] at h
    obtain ⟨pending, -, h⟩ := h
    split at h
    · cases h
    exact enableWith_revokes h nofun

theorem disableTotp_revokes {code : String} (h : disableTotp hotp now user_id user code = some w) :
    (w.user_id = user_id ∧ w.seen = user) ∧ Revokes user_id user w.new (w.deeds ++ w.after) := by
  simp only [disableTotp, Option.bind_eq_bind, Option.bind_eq_some_iff, Option.pure_def, Option.some_inj] at h
  obtain ⟨secret, -, matched, -, rfl⟩ := h
  refine ⟨⟨rfl, rfl⟩, .totp rfl rfl fun d hmem => ?_⟩
  simp only [List.mem_append, List.mem_cons, List.not_mem_nil, or_false] at hmem
  rcases hmem with rfl | rfl
  · exact .inr ⟨_, _, rfl⟩
  · exact .inl rfl

end

/-- The write that the next statement commits. -/
def TotpPc.write : TotpPc → Option UserWrite
  | .commit w => some w
  | .commitAccepted v => some (consumed v.user_id v.user v.matched)
  | _ => none

/-- What a TOTP request holds is sound. -/
def TotpPc.Sound (s : AccountStore) : TotpPc → Prop
  | .claim v | .conditional v | .condLock v | .condCheck v | .condAccept v | .accepted v | .commitAccepted v =>
    s.Knows v.user_id v.user
  | .update w | .commit w => w.Sound s
  | .mint user_id epoch => s.Reached user_id .totp epoch
  | .load _ | .finished => True

section
variable {hotp : String → ℤ → String} {s u : AccountStore} {pc p : TotpPc} {deeds : List Deed}

theorem TotpPc.Sound.mono (h : pc.Sound s) (hb : Bumps s u deeds) : pc.Sound u := by
  cases pc with
  | claim | conditional | condLock | condCheck | condAccept | accepted | commitAccepted => exact hb.knows h
  | update w | commit w => exact UserWrite.Sound.mono h hb
  | mint => exact hb.reached h
  | load | finished => trivial

theorem TotpPc.consume_sound {user_id : ℕ} {user : UserAccount} {code : String} {redis mint : Bool}
    (hrow : s.users.row user_id = some user) : (TotpPc.consume hotp s user_id user code redis mint).Sound s := by
  unfold TotpPc.consume
  split
  · trivial
  · split
    · trivial
    · split <;> exact AccountStore.knows_of_row hrow

theorem TotpPc.decided_sound {op : TotpOp} {user : UserAccount} (hrow : s.users.row op.user_id = some user) :
    (TotpPc.decided hotp s user op).Sound s := by
  have hwrite : ∀ {o : Option UserWrite}, (∀ w, o = some w →
      (w.user_id = op.user_id ∧ w.seen = user) ∧ Revokes op.user_id user w.new (w.deeds ++ w.after)) →
      ((o.map TotpPc.update).getD .finished).Sound s := by
    intro o ho
    cases o with
    | none => trivial
    | some w =>
      obtain ⟨⟨hid, hseen⟩, hr⟩ := ho w rfl
      refine ⟨?_, ?_⟩
      · rw [hid, hseen]
        exact AccountStore.knows_of_row hrow
      · rw [hid, hseen]
        exact hr
  cases op with
  | enable => exact hwrite fun w => enableTotp_revokes
  | disable => exact hwrite fun w => disableTotp_revokes
  | openSession | gated => exact consume_sound hrow

/-- Accepting a code hands out and revokes nothing. -/
theorem Bumps.accepted {user_id : ℕ} {secret : String} {c : ℤ} (husers : u.users = s.users)
    (hhist : u.history = s.history ++ [.accepted user_id secret c]) : Bumps s u [.accepted user_id secret c] :=
  .of_users husers hhist nofun nofun

theorem TotpPc.does (h : (pc.move hotp).Does s p u) (hs : pc.Sound s) (hup : ∀ w, pc.write = some w → w.UpToDate s) :
    p.Sound u ∧ ∃ deeds, Bumps s u deeds := by
  cases pc with
  | load op =>
    obtain ⟨rfl, rfl⟩ := h
    refine ⟨?_, [], .refl⟩
    beta_reduce
    split
    · trivial
    · next user hrow => exact decided_sound hrow
  | claim v =>
    obtain ⟨rfl, rfl⟩ := h
    beta_reduce
    unfold AccountStore.claimTotp
    split
    · exact ⟨hs, _, .accepted rfl rfl⟩
    · exact ⟨trivial, [], .refl⟩
  | conditional v | condCheck v =>
    obtain ⟨rfl, rfl⟩ := h
    refine ⟨?_, [], .refl⟩
    beta_reduce
    split
    · exact hs
    · trivial
  | condLock v | accepted v | update w =>
    obtain ⟨rfl, rfl⟩ := h
    exact ⟨hs, [], .refl⟩
  | condAccept v =>
    obtain ⟨rfl, rfl⟩ := h
    exact ⟨hs, _, .accepted rfl rfl⟩
  | commitAccepted v =>
    obtain ⟨rfl, rfl⟩ := h
    have hw : (consumed v.user_id v.user v.matched).Sound s := ⟨hs, .none fun k => by cases k <;> rfl⟩
    refine ⟨?_, UserWrite.commit_bumps hw.2 (hup _ rfl)⟩
    beta_reduce
    split
    · next hmint => exact UserWrite.commit_reached hw (hup _ rfl) .totp hmint.2
    · trivial
  | commit w =>
    obtain ⟨rfl, rfl⟩ := h
    exact ⟨trivial, UserWrite.commit_bumps hs.2 (hup w rfl)⟩
  | mint user_id epoch =>
    obtain ⟨rfl, rfl⟩ := h
    exact ⟨trivial, _, .note hs⟩
  | finished => exact h.elim

end

/-! ## Transfers -/

/-- The write that the next statement commits. -/
def TransferPc.write : TransferPc → Option UserWrite
  | .commit f source => some ⟨f.code.source_user_id, source, f.swapped source, [], []⟩
  | _ => none

section
variable {hashCode : String → String} {s u : AccountStore} {pc p : TransferPc} {f : FoundCode} {source : UserAccount}

theorem FoundCode.swapped_revokes : Revokes f.code.source_user_id source (f.swapped source)
    [.used f.code_id f.target_id, .revoked .pin f.code.source_user_id, .revoked .totp f.code.source_user_id] where
  by_one := fun k => .inr (by cases k <;> rfl)
  revoked := by
    intro k u hd
    simp only [List.mem_cons, reduceCtorEq, List.not_mem_nil, or_false, false_or] at hd
    rcases hd with hd | hd <;> cases hd <;> exact ⟨rfl, rfl⟩
  issued := by simp

theorem FoundCode.commit_bumps (hup : ∀ cur, s.users.row f.code.source_user_id = some cur →
    UpToDate source (f.swapped source) cur) : ∃ deeds, Bumps s (f.commit source s) deeds := by
  unfold FoundCode.commit
  split
  · refine ⟨_, .flush (w := { s with users := s.users.erase f.target_id }) FoundCode.swapped_revokes hup rfl
      (fun i a ha => ?_) rfl rfl⟩
    rw [Table.erase_row] at ha
    split at ha
    · cases ha
    · exact ha
  · exact ⟨[], .refl⟩

/-- Consuming codes without a transfer. -/
theorem Bumps.withdrawn {cs : List ℕ} (husers : u.users = s.users)
    (hhist : u.history = s.history ++ cs.map .withdrawn) : Bumps s u (cs.map .withdrawn) :=
  .of_users husers hhist (by simp) (by simp)

theorem TransferPc.does (h : (pc.move hashCode).Does s p u) (hup : ∀ w, pc.write = some w → w.UpToDate s) :
    ∃ deeds, Bumps s u deeds := by
  cases pc with
  | purging t target code todo purged =>
    cases todo <;> obtain ⟨-, rfl⟩ := h <;> exact ⟨[], .refl⟩
  | confirm | lockFirst | lockSecond | checks | orphan | swap | cancel | issue =>
    obtain ⟨-, rfl⟩ := h
    exact ⟨[], .refl⟩
  | commitOrphan f =>
    obtain ⟨-, rfl⟩ := h
    unfold FoundCode.commitOrphan
    split
    · exact ⟨_, show Bumps _ _ ([f.code_id].map .withdrawn) from .withdrawn rfl rfl⟩
    · exact ⟨[], .refl⟩
  | commit f source =>
    obtain ⟨-, rfl⟩ := h
    exact FoundCode.commit_bumps (hup _ rfl)
  | cancelling todo locked =>
    cases todo with
    | cons i todo =>
      obtain ⟨-, rfl⟩ := h
      exact ⟨[], .refl⟩
    | nil =>
      obtain ⟨-, rfl⟩ := h
      exact ⟨_, .withdrawn rfl rfl⟩
  | issuePurging source_id code_hash todo purged =>
    cases todo <;> obtain ⟨-, rfl⟩ := h <;> exact ⟨[], .refl⟩
  | issueStamping source_id code_hash purged todo locked =>
    cases todo with
    | cons i todo =>
      obtain ⟨-, rfl⟩ := h
      exact ⟨[], .refl⟩
    | nil =>
      obtain ⟨-, rfl⟩ := h
      simp only [commitIssue]
      split
      · exact ⟨_, .withdrawn rfl rfl⟩
      · exact ⟨[], .refl⟩
  | finished => exact h.elim

end

/-! ## Runs -/

/-- A request of any of the three kinds. -/
inductive RevocationOp
  | pin (op : PinOp)
  | totp (op : TotpOp)
  | transfer (op : TransferOp)

inductive RevocationPc
  | pin (pc : PinPc)
  | totp (pc : TotpPc)
  | transfer (pc : TransferPc)
deriving DecidableEq

def RevocationOp.entry : RevocationOp → RevocationPc
  | .pin op => .pin (.load op)
  | .totp op => .totp (.load op)
  | .transfer op => .transfer op.entry

namespace RevocationPc

def move (hashes : PinHashes) (hotp : String → ℤ → String) (hashCode : String → String) :
    RevocationPc → Move AccountStore AccountLock RevocationPc
  | .pin pc => (pc.move hashes).map .pin
  | .totp pc => (pc.move hotp).map .totp
  | .transfer pc => (pc.move hashCode).map .transfer

/-- The write that the next statement commits. -/
def write : RevocationPc → Option UserWrite
  | .pin pc => pc.write
  | .totp pc => pc.write
  | .transfer pc => pc.write

def Sound (s : AccountStore) : RevocationPc → Prop
  | .pin pc => pc.Sound s
  | .totp pc => pc.Sound s
  | .transfer _ => True

end RevocationPc

abbrev RevocationSys := Transactions.Sys AccountStore AccountLock RevocationPc

/-- Whatever else runs adds and removes users, and changes them and time as it
likes, but no epoch. -/
structure LeavesEpochs (s u : AccountStore) : Prop where
  history : u.history = s.history
  next : s.users.next ≤ u.users.next
  rows : ∀ i b, i < s.users.next → u.users.row i = some b →
    ∃ a, s.users.row i = some a ∧ ∀ k, b.epoch k = a.epoch k

def RevocationStep (hashes : PinHashes) (hotp : String → ℤ → String) (hashCode : String → String) :
    Event RevocationOp → RevocationSys → RevocationSys → Prop :=
  Transactions.Step (RevocationPc.move hashes hotp hashCode) RevocationOp.entry LeavesEpochs

/-- Each changed epoch is written over the value it was computed from. -/
def EpochsUpToDate : Event RevocationOp → RevocationSys → Prop
  | .move i, s => ∀ x w, s.sessions.row i = some x → x.pc.write = some w → w.UpToDate s.store
  | _, _ => True

/-- The check of a session token of the kind. -/
def sessionValid : SessionKind → AccountStore → ℕ → SessionToken → Bool
  | .pin => requirePinSession
  | .totp => validateTotpSession

/-- The token was handed out, and its user's sessions were revoked after that. -/
def RevokedSince (history : List Deed) (k : SessionKind) (token : SessionToken) : Prop :=
  [.issued k token, .revoked k token.user_id].Sublist history

/-- What holds of the tokens in such runs. -/
structure TokensOk (s : AccountStore) : Prop where
  reached : ∀ k token, .issued k token ∈ s.history → s.Reached token.user_id k token.epoch
  revoked : ∀ k token, RevokedSince s.history k token →
    ∀ a, s.users.row token.user_id = some a → token.epoch < a.epoch k

section
variable {hashes : PinHashes} {hotp : String → ℤ → String} {hashCode : String → String} {s u : AccountStore}
  {deeds : List Deed} {k : SessionKind} {token : SessionToken}

theorem LeavesEpochs.bumps (h : LeavesEpochs s u) : Bumps s u [] where
  history := h.history.trans (List.append_nil _).symm
  next := h.next
  rows := by
    intro i b hi hb
    obtain ⟨a, ha, hk⟩ := h.rows i b hi hb
    exact ⟨a, ha, fun k => ⟨(hk k).ge, nofun⟩⟩
  issued := nofun

/-- Two entries in order, split at the seam. -/
theorem pair_sublist_append {α : Type} {a b : α} {l r : List α} (h : [a, b].Sublist (l ++ r)) :
    [a, b].Sublist l ∨ (a ∈ l ∧ b ∈ r) ∨ [a, b].Sublist r := by
  obtain ⟨l₁, l₂, heq, hl, hr⟩ := List.sublist_append_iff.1 h
  rcases l₁ with _ | ⟨x, _ | ⟨y, _ | ⟨z, l₁⟩⟩⟩ <;> simp only [List.nil_append, List.cons_append, List.cons.injEq] at heq
  · subst heq
    exact .inr (.inr hr)
  · obtain ⟨rfl, rfl⟩ := heq
    exact .inr (.inl ⟨hl.subset List.mem_cons_self, hr.subset List.mem_cons_self⟩)
  · obtain ⟨rfl, rfl, -⟩ := heq
    exact .inl hl
  · exact absurd heq.2.2 (by simp)

theorem TokensOk.bumps (hs : TokensOk s) (h : Bumps s u deeds) : TokensOk u where
  reached := by
    intro k token hmem
    rw [h.history, List.mem_append] at hmem
    rcases hmem with hmem | hmem
    · exact h.reached (hs.reached k token hmem)
    · exact (h.issued k token hmem).2
  revoked := by
    intro k token hr b hb
    unfold RevokedSince at hr
    rw [h.history] at hr
    rcases pair_sublist_append hr with hold | ⟨hissued, hrevoked⟩ | hnew
    · -- revoked before: the epoch has not gone down since
      have hlt := (hs.reached k token (hold.subset List.mem_cons_self)).1
      obtain ⟨a, ha, hk⟩ := h.rows _ b hlt hb
      exact (hs.revoked k token hold a ha).trans_le (hk k).1
    · -- revoked now: the epoch goes up
      obtain ⟨hlt, hle⟩ := hs.reached k token hissued
      obtain ⟨a, ha, hk⟩ := h.rows _ b hlt hb
      exact (hle a ha).trans_lt ((hk k).2 hrevoked)
    · rw [(h.issued k token (hnew.subset List.mem_cons_self)).1] at hnew
      exact absurd hnew.length_le (by simp)

theorem RevocationPc.Sound.mono {pc : RevocationPc} (h : pc.Sound s) (hb : Bumps s u deeds) : pc.Sound u := by
  cases pc with
  | pin pc => exact PinPc.Sound.mono h hb
  | totp pc => exact TotpPc.Sound.mono h hb
  | transfer pc => trivial

theorem RevocationPc.does {pc p : RevocationPc} (h : (pc.move hashes hotp hashCode).Does s p u) (hs : pc.Sound s)
    (hup : ∀ w, pc.write = some w → w.UpToDate s) : p.Sound u ∧ ∃ deeds, Bumps s u deeds := by
  cases pc with
  | pin pc =>
    obtain ⟨p, rfl, hdoes⟩ := Move.Does.of_map h
    exact PinPc.does hdoes hs hup
  | totp pc =>
    obtain ⟨p, rfl, hdoes⟩ := Move.Does.of_map h
    exact TotpPc.does hdoes hs hup
  | transfer pc =>
    obtain ⟨p, rfl, hdoes⟩ := Move.Does.of_map h
    exact ⟨trivial, TransferPc.does hdoes hup⟩

theorem tokensOk {start : AccountStore} {t : RevocationSys} (h0 : start.history = [])
    (h : Reach (RevocationStep hashes hotp hashCode) EpochsUpToDate (.idle start) t) : TokensOk t.store := by
  have hstart : TokensOk start := by
    refine ⟨fun k token hmem => ?_, fun k token hr => ?_⟩
    · rw [h0] at hmem
      cases hmem
    · rw [RevokedSince, h0] at hr
      cases hr
  refine (outline (I := TokensOk) (L := fun s _ x => x.pc.Sound s) h hstart ?_ ?_ ?_).1
  · intro op s i _
    cases op <;> trivial
  · intro s i x y u hI hL hok hx hm
    obtain ⟨hy, deeds, hb⟩ := RevocationPc.does hm.does (hL i x hx) fun w hw => hok x w hx hw
    exact ⟨hI.bumps hb, hy, fun j z _ hj => (hL j z hj).mono hb⟩
  · intro s u hI _ hother
    exact ⟨hI.bumps hother.bumps, fun j z _ hz => hz.mono hother.bumps⟩

/-- A token passes only with the epoch its user has. -/
theorem sessionValid_epoch {user_id : ℕ} (h : sessionValid k s user_id token = true) :
    ∃ a, s.users.row token.user_id = some a ∧ token.epoch = a.epoch k := by
  cases k with
  | pin =>
    simp only [sessionValid, requirePinSession] at h
    split at h
    · cases h
    · next a ha =>
      simp only [Bool.and_eq_true, decide_eq_true_eq] at h
      obtain ⟨⟨⟨-, hid⟩, hepoch⟩, -⟩ := h
      exact ⟨a, hid ▸ ha, hepoch⟩
  | totp =>
    simp only [sessionValid, validateTotpSession] at h
    split at h
    · cases h
    · next a ha =>
      simp only [Bool.and_eq_true, decide_eq_true_eq] at h
      obtain ⟨⟨⟨-, hid⟩, hepoch⟩, -⟩ := h
      exact ⟨a, hid ▸ ha, hepoch⟩

/-- Once an operation that revokes sessions of a kind has committed, no token
of that kind handed out before is accepted, in every run in which each changed
epoch is written over the value it was computed from. -/
theorem sessions_revoked {start : AccountStore} {t : RevocationSys} (h0 : start.history = [])
    (h : Reach (RevocationStep hashes hotp hashCode) EpochsUpToDate (.idle start) t)
    (hr : RevokedSince t.store.history k token) (user_id : ℕ) : sessionValid k t.store user_id token = false := by
  by_contra hvalid
  obtain ⟨a, ha, hepoch⟩ := sessionValid_epoch (Bool.not_eq_false _ ▸ hvalid)
  exact ((tokensOk h0 h).revoked k token hr a ha).ne hepoch

end

/-! ## Two increments -/

def sampleHashes : PinHashes := ⟨id, fun pin hash => pin = hash, fun code hash => code = hash⟩

def samplePinUser : UserAccount := { sampleAccount 101 with pin_hash := some "7391" }

/-- One user with a PIN. -/
def sampleProtected : AccountStore := { sampleAccounts with users := Table.empty.insert samplePinUser }

/-- `pin_change` of that user. -/
def sampleChange : UserWrite :=
  ⟨1, samplePinUser,
    { samplePinUser with pin_hash := some "8264", pin_session_epoch := 1, pin_last_activity_at := some 0 },
    [.revoked .pin 1], []⟩

/-- `invalidate_sessions` of the user as loaded. -/
def sampleInvalidate (user : UserAccount) : UserWrite :=
  ⟨1, user, { user with pin_session_epoch := user.pin_session_epoch + 1, totp_session_epoch := user.totp_session_epoch + 1 },
    [.revoked .pin 1, .revoked .totp 1], []⟩

/-- The token that `pin_change` hands out. -/
def sampleToken : SessionToken := ⟨1, 1, seconds 86400⟩

abbrev sampleHotp : String → ℤ → String := fun _ _ => ""

/-- The PIN changes, and then an admin invalidates the new token. -/
theorem sampleToken_revoked :
    ∃ t, Reach (RevocationStep sampleHashes sampleHotp id) EpochsUpToDate (.idle sampleProtected) t ∧
    RevokedSince t.store.history .pin sampleToken ∧ sessionValid .pin t.store 1 sampleToken = false := by
  have h₀ : Reach (RevocationStep sampleHashes sampleHotp id) EpochsUpToDate (.idle sampleProtected)
    (.idle sampleProtected) := .refl
  have h₁ := run_start h₀ (.pin (.change 1 "7391" "8264")) trivial
  have h₂ := run_read (p := .pin (.lockUser (.change 1 "7391" "8264"))) h₁ 1 rfl rfl (by decide +kernel)
    (by rintro x w hx hw; cases hx; cases hw)
  have h₃ := run_lock h₂ 1 rfl rfl (Sys.freeFor_of_check (by decide)) (by rintro x w hx hw; cases hx; cases hw)
  have h₄ := run_read (p := .pin (.update sampleChange true)) h₃ 1 rfl rfl (by decide +kernel)
    (by rintro x w hx hw; cases hx; cases hw)
  have h₅ := run_lock h₄ 1 rfl rfl (Sys.freeFor_of_check (by decide)) (by rintro x w hx hw; cases hx; cases hw)
  have h₆ := run_commit (p := .pin (.mint 1 1)) h₅ 1 rfl rfl (by decide +kernel) (by
    rintro x w hx hw cur hcur k
    cases hx
    cases hw
    cases hcur
    exact fun _ => rfl)
  have h₇ := run_exchange (p := .pin .finished) h₆ 1 rfl rfl rfl (by rintro x w hx hw; cases hx; cases hw)
  have h₈ := run_start h₇ (.pin (.invalidateSessions 1)) trivial
  have h₉ := run_read (p := .pin (.update (sampleInvalidate sampleChange.new) false)) h₈ 2 rfl rfl (by decide +kernel)
    (by rintro x w hx hw; cases hx; cases hw)
  have h₁₀ := run_lock h₉ 2 rfl rfl (Sys.freeFor_of_check (by decide)) (by rintro x w hx hw; cases hx; cases hw)
  have h₁₁ := run_commit (p := .pin .finished) h₁₀ 2 rfl rfl rfl (by
    rintro x w hx hw cur hcur k
    cases hx
    cases hw
    cases hcur
    exact fun _ => by cases k <;> decide +kernel)
  have hr : RevokedSince _ .pin sampleToken :=
    show List.Sublist _ [.revoked .pin 1, .issued .pin sampleToken, .revoked .pin 1, .revoked .totp 1] by decide +kernel
  exact ⟨_, h₁₁, hr, sessions_revoked rfl h₁₁ hr 1⟩

/-- An admin's request has loaded the user; the user changes the PIN and gets a
token; the request commits, and the token still passes. -/
theorem revocation_lost : ¬ ∀ (hashes : PinHashes) (hotp : String → ℤ → String) (hashCode : String → String)
    (start : AccountStore) (t : RevocationSys), start.history = [] →
    Reach (RevocationStep hashes hotp hashCode) Free (.idle start) t →
    ∀ k token user_id, RevokedSince t.store.history k token → sessionValid k t.store user_id token = false := by
  intro hall
  have h₀ : Reach (RevocationStep sampleHashes sampleHotp id) Free (.idle sampleProtected) (.idle sampleProtected) := .refl
  -- `invalidate_sessions` loads the user
  have h₁ := run_start h₀ (.pin (.invalidateSessions 1)) trivial
  have h₂ := run_read (p := .pin (.update (sampleInvalidate samplePinUser) false)) h₁ 1 rfl rfl (by decide +kernel) trivial
  -- `pin_change` runs to its end
  have h₃ := run_start h₂ (.pin (.change 1 "7391" "8264")) trivial
  have h₄ := run_read (p := .pin (.lockUser (.change 1 "7391" "8264"))) h₃ 2 rfl rfl (by decide +kernel) trivial
  have h₅ := run_lock h₄ 2 rfl rfl (Sys.freeFor_of_check (by decide)) trivial
  have h₆ := run_read (p := .pin (.update sampleChange true)) h₅ 2 rfl rfl (by decide +kernel) trivial
  have h₇ := run_lock h₆ 2 rfl rfl (Sys.freeFor_of_check (by decide)) trivial
  have h₈ := run_commit (p := .pin (.mint 1 1)) h₇ 2 rfl rfl (by decide +kernel) trivial
  have h₉ := run_exchange (p := .pin .finished) h₈ 2 rfl rfl rfl trivial
  -- and `invalidate_sessions` writes the same epoch again
  have h₁₀ := run_lock h₉ 1 rfl rfl (Sys.freeFor_of_check (by decide)) trivial
  have h₁₁ := run_commit (p := .pin .finished) h₁₀ 1 rfl rfl rfl trivial
  have hr : RevokedSince _ .pin sampleToken :=
    show List.Sublist _ [.revoked .pin 1, .issued .pin sampleToken, .revoked .pin 1, .revoked .totp 1] by decide +kernel
  have hvalid := hall _ _ _ _ _ rfl h₁₁ .pin sampleToken 1 hr
  revert hvalid
  decide +kernel

end Garant
