import Garant.Lib.Journal
import Garant.PinRequests
/-!
# Guessing and replacing a PIN

`guesses_bounded`: however the requests that verify a PIN or a reset code are
interleaved, no more than `pin_max_attempts` verifications fail between two locks
unless one succeeds, and none is made while the user is locked.

`pin_replaced_with_proof`: a PIN that is set gives way only to the old PIN, a live
reset code or an admin, in every run in which no other PIN is committed between the
load and the commit of a `pin_setup`. `setup_replaces_pin`: two set-ups at once, of
which the second wins.
-/
open Transactions

namespace Garant

/-! ## Failed verifications -/

/-- A failed verification of the user was committed. -/
def PinCommit.fails (u : ℕ) (c : PinCommit) : Bool := c.request.user_id = u && c.verified = some false

def PinCommit.passes (u : ℕ) (c : PinCommit) : Bool := c.request.user_id = u && c.verified = some true

/-- The commit starts a lock of the user. -/
def PinCommit.locks (u : ℕ) (c : PinCommit) : Bool :=
  c.request.user_id = u && c.after.pin_locked_until.isSome && c.after.pin_locked_until ≠ c.before.pin_locked_until

def PinCommit.resets (u : ℕ) (c : PinCommit) : Bool := c.passes u || c.locks u

/-- The bounds on guessing with at most `max` attempts. -/
structure GuessesBounded (max : ℕ) (s : PinStore) : Prop where
  /-- In a stretch without a success in which at most the last commit starts a lock. -/
  stretch : ∀ u pre seg post, s.commits = pre ++ seg ++ post → (∀ c ∈ seg, c.passes u = false) →
    (∀ c ∈ seg.dropLast, c.locks u = false) → seg.countP (·.fails u) ≤ max
  unlocked : ∀ c ∈ s.checks, isLocked c.time c.row = false
  attempts : ∀ u row, s.accounts.users.row u = some row → row.pin_attempts < max

/-- What every commit keeps: the counter in the row is at least the failures since the last reset. -/
structure GuessesCounted (max : ℕ) (s : PinStore) : Prop where
  since : ∀ u p, p <+: s.commits → Journal.since (PinCommit.fails u) (PinCommit.resets u) p < max
  counted : ∀ u row, s.accounts.users.row u = some row →
    Journal.since (PinCommit.fails u) (PinCommit.resets u) s.commits ≤ row.pin_attempts ∧ row.pin_attempts < max
  unlocked : ∀ c ∈ s.checks, isLocked c.time c.row = false

section
variable {hashes : ResetHashes} {settings : AccountSettings} {s t : PinStore} {cur : UserAccount} {w : PinWrite} {max u : ℕ}
  {c : PinCommit}

theorem GuessesCounted.bounded (h : GuessesCounted max s) : GuessesBounded max s where
  stretch u pre seg post hs hpass hlock := by
    refine Journal.countP_stretch pre (PinCommit.resets u) (fun p hp => h.since u p ?_) fun c hc => ?_
    · exact hp.trans (hs ▸ List.prefix_append _ _)
    · rw [PinCommit.resets, hpass c (List.dropLast_subset _ hc), hlock c hc, Bool.or_false]
  unlocked := h.unlocked
  attempts u row hrow := (h.counted u row hrow).2

theorem GuessesCounted.kept (h : GuessesCounted max s) (hk : UsersKept s t) : GuessesCounted max t where
  since u p hp := h.since u p (hk.commits ▸ hp)
  counted u row hrow := by
    rw [hk.users] at hrow
    rw [hk.commits]
    exact h.counted u row hrow
  unlocked c hc := (hk.checks c hc).elim (h.unlocked c) id

/-- The lock that a wrong attempt starts is not one the row already had. -/
theorem lock_new {now until_ : Time} {minutes : ℤ} {user : UserAccount} (hL : 0 < minutes) (h : isLocked now user = false)
    (hu : until_ = now + seconds (minutes * 60)) : user.pin_locked_until ≠ some until_ := by
  intro heq
  rw [isLocked, heq, Option.any_some, decide_eq_false_iff_not, hu] at h
  refine h (lt_add_of_pos_right _ ?_)
  show 0 < minutes * 60 * 1000000
  omega

/-- One commit over the row it was decided on: a failure adds one to the counter, or starts a lock. -/
theorem counted_commit {n : ℕ} (hM : 1 ≤ settings.pin_max_attempts) (hL : 0 < settings.pin_lock_minutes)
    (hj : w.Justified hashes settings) (hl : w.request.locks = true)
    (hc : c = ⟨w.request, w.time, w.verified, w.write.seen, w.write.new⟩) (hu : w.request.user_id = u)
    (hn : n ≤ w.write.seen.pin_attempts) (hlt : w.write.seen.pin_attempts < settings.pin_max_attempts) :
    (if c.resets u then 0 else if c.fails u then n + 1 else n) ≤ w.write.new.pin_attempts ∧
      w.write.new.pin_attempts < settings.pin_max_attempts := by
  subst hc
  have hpos : 0 < settings.pin_max_attempts := hM
  match hv : w.verified with
  | none =>
    obtain ⟨hattempts, hlocked⟩ := hj.plain hv hl
    simp only [PinCommit.resets, PinCommit.passes, PinCommit.locks, PinCommit.fails, hlocked, hattempts]
    simpa using ⟨hn, hlt⟩
  | some true =>
    simp only [PinCommit.resets, PinCommit.passes, hu, (hj.passed hv).1]
    simpa using hpos
  | some false =>
    have hnew := hj.failed hv
    have hopen := hj.unlocked (by rw [hv]; nofun)
    unfold wrongAttempt at hnew
    split at hnew
    · have hne := lock_new hL hopen rfl
      simp only [PinCommit.resets, PinCommit.locks, hu, hnew]
      simpa [Ne.symm hne] using hpos
    · simp only [PinCommit.resets, PinCommit.passes, PinCommit.locks, PinCommit.fails, hu, hnew]
      simp
      omega

/-- The requests of the users themselves that go through `_lock_user_for_pin`. -/
def GuessesOnly : Event PinRequest → PinSys → Prop
  | .start r, _ => r.locks = true
  | _, _ => True

theorem GuessesCounted.commit (hM : 1 ≤ settings.pin_max_attempts) (hL : 0 < settings.pin_lock_minutes)
    (h : GuessesCounted settings.pin_max_attempts s) (hj : w.Justified hashes settings) (hl : w.request.locks = true)
    (hcur : s.accounts.users.row w.write.user_id = some w.write.seen) :
    GuessesCounted settings.pin_max_attempts (w.commit s) := by
  obtain ⟨hcommits, hchecks, -, hrows⟩ := PinWrite.commit_eq hcur
  rw [flush_fresh] at hcommits hrows
  -- the failures after the commit, of the user it is about and of the others
  have hother : ∀ v, v ≠ w.write.user_id → Journal.since (PinCommit.fails v) (PinCommit.resets v) (w.commit s).commits =
      Journal.since (PinCommit.fails v) (PinCommit.resets v) s.commits := by
    intro v hv
    rw [hj.user] at hv
    rw [hcommits, Journal.since_concat]
    simp [PinCommit.fails, PinCommit.resets, PinCommit.passes, PinCommit.locks, Ne.symm hv]
  obtain ⟨hn, hlt⟩ := h.counted _ _ hcur
  have hself := counted_commit hM hL hj hl rfl hj.user.symm hn hlt
  rw [← Journal.since_concat, ← hcommits] at hself
  refine ⟨fun v p hp => ?_, fun v row hrow => ?_, hchecks ▸ h.unlocked⟩
  · have hend : Journal.since (PinCommit.fails v) (PinCommit.resets v) (w.commit s).commits < settings.pin_max_attempts := by
      by_cases hv : v = w.write.user_id
      · rw [hv]
        exact hself.1.trans_lt hself.2
      · rw [hother v hv]
        exact h.since v _ List.prefix_rfl
    rw [hcommits] at hp hend
    rcases List.prefix_concat_iff.1 hp with rfl | hp
    · exact hend
    · exact h.since v p hp
  · rw [hrows] at hrow
    split at hrow
    · rename_i hv
      cases hrow
      rw [hv]
      exact hself
    · rename_i hv
      rw [hother v hv]
      exact h.counted v row hrow

/-- Wrong PINs and reset codes are bounded, in every run of the requests that verify them or send codes. -/
theorem guesses_bounded {start : PinStore} {T : PinSys} (hM : 1 ≤ start.accounts.settings.pin_max_attempts)
    (hL : 0 < start.accounts.settings.pin_lock_minutes) (hchecks : start.checks = []) (hcommits : start.commits = [])
    (h0 : ∀ u row, start.accounts.users.row u = some row → row.pin_attempts < start.accounts.settings.pin_max_attempts)
    (h : Reach (PinStep hashes) GuessesOnly (.idle start) T) :
    GuessesBounded start.accounts.settings.pin_max_attempts T.store := by
  have hstart : GuessesCounted start.accounts.settings.pin_max_attempts start := by
    refine ⟨fun u p hp => ?_, fun u row hrow => ?_, fun c hc => ?_⟩
    · rw [hcommits, List.prefix_nil] at hp
      rw [hp]
      exact hM
    · rw [hcommits]
      exact ⟨Nat.zero_le _, h0 u row hrow⟩
    · rw [hchecks] at hc
      cases hc
  refine (pin_outline (P := fun r => r.locks = true) h hstart (fun S r hok => hok) (fun s t hs hk => hs.kept hk) ?_).bounded
  rintro S i x w cur hI - - - hl hj hcur hfresh
  exact hI.commit hM hL hj hl (hfresh hl ▸ hcur)

end

/-! ## A wrong guess -/

def sampleResetHashes : ResetHashes := ⟨⟨id, fun pin hash => pin = hash, fun code hash => code = hash⟩, id⟩

def sampleOwner (pin_hash : Option String) : UserAccount := { sampleAccount 101 with pin_hash }

/-- One user, with that PIN if any. -/
def samplePins (pin_hash : Option String) : PinStore where
  accounts := { sampleAccounts with users := Table.empty.insert (sampleOwner pin_hash) }
  throttles := fun _ => ⟨none, 0⟩
  pin_reset_code_ttl_seconds := 600
  pin_reset_price_usd := none
  usd := none
  balances := fun _ _ => none
  checks := []
  commits := []

/-- What an operation of the user commits; it does not touch the throttle. -/
def samplePinWrite (op : PinOp) (verified : Option Bool) (seen new : UserAccount) (deeds : List Deed) : PinWrite :=
  ⟨.pin op, 0, verified, ⟨1, seen, new, deeds, []⟩, (⟨none, 0⟩, ⟨none, 0⟩), none⟩

/-- A wrong PIN counts. -/
def sampleWrongPin : PinWrite :=
  samplePinWrite (.check 1 "4862") (some false) (sampleOwner (some "7391"))
    { sampleOwner (some "7391") with pin_attempts := 1 } []

theorem sampleWrongPin_bounded : ∃ T, Reach (PinStep sampleResetHashes) GuessesOnly (.idle (samplePins (some "7391"))) T ∧
    T.store.commits.countP (·.fails 1) = 1 ∧ GuessesBounded 5 T.store := by
  have h₀ : Reach (PinStep sampleResetHashes) GuessesOnly (.idle (samplePins (some "7391")))
    (.idle (samplePins (some "7391"))) := .refl
  have h₁ := run_start h₀ (.pin (.check 1 "4862")) rfl
  have h₂ := run_read (p := .lockUser (.pin (.check 1 "4862"))) h₁ 1 rfl rfl (by decide +kernel) trivial
  have h₃ := run_lock h₂ 1 rfl rfl (Sys.freeFor_of_check (by decide)) trivial
  have h₄ := run_exchange (p := .update sampleWrongPin) h₃ 1 rfl rfl (by decide +kernel) trivial
  have h₅ := run_lock h₄ 1 rfl rfl (Sys.freeFor_of_check (by decide)) trivial
  have h₆ := run_commit (p := .finished) h₅ 1 rfl rfl rfl trivial
  refine ⟨_, h₆, by decide +kernel, guesses_bounded (by decide) (by decide) rfl rfl (fun u row hrow => ?_) h₆⟩
  change (if u = 1 then _ else none) = some row at hrow
  split at hrow
  · cases hrow
    decide
  · cases hrow

section
variable {hashes : ResetHashes} {s t : PinStore} {cur : UserAccount} {w : PinWrite} {u : ℕ} {c : PinCommit}

/-! ## Replacing a PIN -/

/-- The commits of one user follow on from each other, so `before` is what was committed last. -/
theorem commits_chain {Ok : Event PinRequest → PinSys → Prop} {start : PinStore} {T : PinSys} {row₀ row : UserAccount}
    (hcommits : start.commits = []) (h : Reach (PinStep hashes) Ok (.idle start) T)
    (h₀ : start.accounts.users.row u = some row₀) (hrow : T.store.accounts.users.row u = some row) :
    Journal.Chain PinCommit.before PinCommit.after row₀ (T.store.commits.filter fun c => c.request.user_id = u) row := by
  have hI := pin_outline (P := fun _ => True)
    (I := fun s => ∃ row, s.accounts.users.row u = some row ∧
      Journal.Chain PinCommit.before PinCommit.after row₀ (s.commits.filter fun c => c.request.user_id = u) row)
    h ⟨row₀, h₀, by rw [hcommits]; rfl⟩ (fun _ _ _ => trivial) ?_ ?_
  · obtain ⟨row', hrow', hchain⟩ := hI
    rw [hrow] at hrow'
    cases hrow'
    exact hchain
  · rintro s t ⟨row, hrow, hchain⟩ hk
    rw [hk.users, hk.commits]
    exact ⟨row, hrow, hchain⟩
  · rintro S i x w cur ⟨row, hrow, hchain⟩ - - - - hj hcur -
    obtain ⟨hlog, -, -, hrows⟩ := PinWrite.commit_eq hcur
    rw [hlog, hrows, List.filter_append]
    by_cases hu : u = w.write.user_id
    · obtain rfl : row = cur := by
        rw [hu, hcur] at hrow
        cases hrow
        rfl
      rw [if_pos hu, List.filter_cons_of_pos (by simp [hu, hj.user]), List.filter_nil]
      exact ⟨_, rfl, hchain.snoc rfl⟩
    · rw [if_neg hu, List.filter_cons_of_neg (by simpa [← hj.user] using Ne.symm hu), List.filter_nil, List.append_nil]
      exact ⟨row, hrow, hchain⟩

/-- A request that takes no lock and needs no proof needs none of any row. -/
theorem PinRequest.Proves.of_unlocked {pins : PinHashes} {r : PinRequest} {time : Time} {row row' : UserAccount}
    (h : r.Proves pins time row) (hl : r.locks = false) : r.Proves pins time row' := by
  match r with
  | .pin (.resetPin _) => trivial
  | .pin (.change ..) | .pin (.resetConfirm ..) => cases hl
  | .pin (.setup ..) | .pin (.check ..) | .pin (.invalidateSessions _) | .resetRequest .. | .resetPaid .. => exact h.elim

/-- When a `pin_setup` commits, the PIN of the user is still as it was loaded: nobody has
committed another between the load and the commit. -/
def SetsOnce : Event PinRequest → PinSys → Prop
  | .move i, S => ∀ x w, S.sessions.row i = some x → x.pc = .commit w → (∃ u pin, w.request = .pin (.setup u pin)) →
      ∀ cur, S.store.accounts.users.row w.write.user_id = some cur → cur.pin_hash = w.write.seen.pin_hash
  | _, _ => True

/-- Once a PIN is set, another one takes its place only with proof. -/
theorem pin_replaced_with_proof {start : PinStore} {T : PinSys} (hcommits : start.commits = [])
    (h : Reach (PinStep hashes) SetsOnce (.idle start) T) :
    ∀ c ∈ T.store.commits, present c.before.pin_hash = true → c.after.pin_hash ≠ c.before.pin_hash →
      c.request.Proves hashes.toPinHashes c.time c.before := by
  refine pin_outline (P := fun _ => True)
    (I := fun s => ∀ c ∈ s.commits, present c.before.pin_hash = true → c.after.pin_hash ≠ c.before.pin_hash →
      c.request.Proves hashes.toPinHashes c.time c.before)
    h (fun c hc => by rw [hcommits] at hc; cases hc) (fun _ _ _ => trivial) (fun s t hs hk => by rw [hk.commits]; exact hs) ?_
  rintro S i x w cur hI hok hx hpc - hj hcur hfresh c hc hset hne
  rw [(PinWrite.commit_eq hcur).1] at hc
  rcases List.mem_append.1 hc with hc | hc
  · exact hI c hc hset hne
  rw [List.mem_singleton] at hc
  subst hc
  have hchanged : w.write.new.pin_hash ≠ w.write.seen.pin_hash := by
    intro heq
    exact hne (by simp only [flush, heq, column_unchanged])
  rcases hj.hash hchanged with hproof | hsetup
  · -- an admin needs none; the others locked the row
    cases hl : w.request.locks with
    | true => exact hfresh hl ▸ hproof
    | false => exact hproof.of_unlocked hl
  · -- a set-up starts from a row without one
    have hnone := hj.setup hsetup
    rw [← hok x w hx hpc hsetup cur hcur] at hnone
    cases hset.symm.trans hnone

end

/-- The user changes the PIN, and knows the old one. -/
def samplePinChange : PinWrite :=
  samplePinWrite (.change 1 "7391" "8264") (some true) (sampleOwner (some "7391"))
    { sampleOwner (some "7391") with pin_hash := some "8264", pin_session_epoch := 1, pin_last_activity_at := some 0 }
    [.revoked .pin 1]

theorem samplePinChange_proved : ∃ T, Reach (PinStep sampleResetHashes) SetsOnce (.idle (samplePins (some "7391"))) T ∧
    ∃ c ∈ T.store.commits, c.before.pin_hash = some "7391" ∧ c.after.pin_hash = some "8264" ∧
      c.request.Proves sampleResetHashes.toPinHashes c.time c.before := by
  have h₀ : Reach (PinStep sampleResetHashes) SetsOnce (.idle (samplePins (some "7391")))
    (.idle (samplePins (some "7391"))) := .refl
  have h₁ := run_start h₀ (.pin (.change 1 "7391" "8264")) trivial
  have h₂ := run_read (p := .lockUser (.pin (.change 1 "7391" "8264"))) h₁ 1 rfl rfl (by decide +kernel)
    (by rintro x w hx hw; cases hx; cases hw)
  have h₃ := run_lock h₂ 1 rfl rfl (Sys.freeFor_of_check (by decide)) (by rintro x w hx hw; cases hx; cases hw)
  have h₄ := run_exchange (p := .update samplePinChange) h₃ 1 rfl rfl (by decide +kernel)
    (by rintro x w hx hw; cases hx; cases hw)
  have h₅ := run_lock h₄ 1 rfl rfl (Sys.freeFor_of_check (by decide)) (by rintro x w hx hw; cases hx; cases hw)
  have h₆ := run_commit (p := .finished) h₅ 1 rfl rfl rfl (by
    rintro x w hx hw ⟨u, pin, hr⟩
    cases hx
    cases hw
    cases hr)
  exact ⟨_, h₆, _, List.mem_singleton_self _, rfl, rfl,
    pin_replaced_with_proof rfl h₆ _ (List.mem_singleton_self _) (by decide +kernel) (by decide +kernel)⟩

/-- A first PIN of a user who has none. -/
def samplePinSetup (pin : String) : PinWrite :=
  samplePinWrite (.setup 1 pin) none (sampleOwner none)
    { sampleOwner none with pin_hash := some pin, pin_last_activity_at := some 0 } []

/-- Two set-ups have found no PIN; the first sets one, and the second another, with no proof of the first. -/
theorem setup_replaces_pin : ¬ ∀ (hashes : ResetHashes) (start : PinStore) (T : PinSys), start.commits = [] →
    Reach (PinStep hashes) Free (.idle start) T →
    ∀ c ∈ T.store.commits, present c.before.pin_hash = true → c.after.pin_hash ≠ c.before.pin_hash →
      c.request.Proves hashes.toPinHashes c.time c.before := by
  intro hall
  have h₀ : Reach (PinStep sampleResetHashes) Free (.idle (samplePins none)) (.idle (samplePins none)) := .refl
  have h₁ := run_start h₀ (.pin (.setup 1 "7391")) trivial
  have h₂ := run_start h₁ (.pin (.setup 1 "8264")) trivial
  have h₃ := run_read (p := .update (samplePinSetup "7391")) h₂ 1 rfl rfl (by decide +kernel) trivial
  have h₄ := run_read (p := .update (samplePinSetup "8264")) h₃ 2 rfl rfl (by decide +kernel) trivial
  have h₅ := run_lock h₄ 1 rfl rfl (Sys.freeFor_of_check (by decide)) trivial
  have h₆ := run_commit (p := .finished) h₅ 1 rfl rfl rfl trivial
  have h₇ := run_lock h₆ 2 rfl rfl (Sys.freeFor_of_check (by decide)) trivial
  have h₈ := run_commit (p := .finished) h₇ 2 rfl rfl rfl trivial
  exact hall _ _ _ rfl h₈ _ (List.mem_cons_of_mem _ (List.mem_singleton_self _)) (by decide +kernel) (by decide +kernel)

end Garant
