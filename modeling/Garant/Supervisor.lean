import Mathlib
/-!
# The listen supervisor

`_listen_supervisor` from one await to the next, for any sequence of outcomes
of what it awaits. It counts the listen sessions that ended since the last
subscription that succeeded, and converts `2 ** (n - 1)` to a float before it
caps the delay: the 1025th failure in a row raises `OverflowError` where nothing
catches it. `supervisor_survives_iff` says that nothing else ends it.
-/

namespace Garant

/-- `_WS_LISTEN_BACKOFF_BASE` and `_WS_LISTEN_BACKOFF_CAP`. -/
def listenBackoffBase : ℚ := 1 / 2
def listenBackoffCap : ℚ := 30

/-- `2 ** k` as a float: exact, until it is too large and the conversion raises `OverflowError`. -/
def floatPow2 (k : ℕ) : Option ℚ := if k < 1024 then some (2 ^ k) else none

/-- `min(cap, base * (2 ** (consecutive_failures - 1)))`. -/
def listenDelay (consecutive_failures : ℕ) : Option ℚ :=
  (floatPow2 (consecutive_failures - 1)).map fun f => min listenBackoffCap (listenBackoffBase * f)

inductive SupervisorEnd
  | cancelled
  | overflow
deriving DecidableEq

/-- What the supervisor awaits. -/
inductive Awaits
  | listen
  | aclose
  | sleep (delay : ℚ)
  | getRedis
  | subscribe
  | ended (how : SupervisorEnd)
deriving DecidableEq

/-- How an await ends. -/
inductive ListenOutcome
  | listened (raised : Bool)
  | closed (raised : Bool)
  | slept
  | redis (found : Bool)
  | subscribed (raised : Bool)
  | cancelled
deriving DecidableEq

structure Supervisor where
  awaits : Awaits
  active_ps : Bool
  consecutive_failures : ℕ
deriving DecidableEq

/-- A supervisor with the subscription it was given. -/
def Supervisor.fresh : Supervisor := ⟨.listen, true, 0⟩

/-- The supervisor after an await, if the await can end so: `_listen(None)` only raises. -/
def Supervisor.exec (s : Supervisor) (o : ListenOutcome) : Option Supervisor :=
  match s.awaits, o with
  | .listen, .listened raised =>
    if s.active_ps || raised then some ⟨.aclose, false, s.consecutive_failures + 1⟩ else none
  | .aclose, .closed _ =>
    match listenDelay s.consecutive_failures with
    | some delay => some { s with awaits := .sleep delay }
    | none => some { s with awaits := .ended .overflow }
  | .sleep _, .slept => some { s with awaits := .getRedis }
  | .getRedis, .redis found => some { s with awaits := if found then .subscribe else .listen }
  | .subscribe, .subscribed raised =>
    if raised then some { s with awaits := .listen } else some ⟨.listen, true, 0⟩
  | .ended _, _ => none
  | _, .cancelled => some { s with awaits := .ended .cancelled }
  | _, _ => none

/-- A run of the supervisor, from the state `start_subscriber` leaves it in. -/
def supervise (outcomes : List ListenOutcome) : Option Supervisor := outcomes.foldlM Supervisor.exec .fresh

def countFailure (n : ℕ) : ListenOutcome → ℕ
  | .listened _ => n + 1
  | .subscribed false => 0
  | _ => n

/-- The listen sessions that ended since the last subscription that succeeded. -/
def failuresIn (outcomes : List ListenOutcome) : ℕ := outcomes.foldl countFailure 0

/-- What is asked of a supervisor after the outcomes. -/
structure Survives (outcomes : List ListenOutcome) (s : Supervisor) : Prop where
  ends : ∀ how, s.awaits = .ended how → how = .cancelled
  delays : ∀ delay, s.awaits = .sleep delay → listenBackoffBase ≤ delay ∧ delay ≤ listenBackoffCap
  resets : ∀ before, outcomes = before ++ [.subscribed false] → s.consecutive_failures = 0

variable {outcomes before after : List ListenOutcome} {o : ListenOutcome} {s t : Supervisor} {raised : Bool} {n : ℕ}

/-! ## One await -/

theorem supervise_snoc (h : supervise (outcomes ++ [o]) = some t) : ∃ s, supervise outcomes = some s ∧ s.exec o = some t := by
  rw [supervise, List.foldlM_append] at h
  obtain ⟨s, hs, ht⟩ := Option.bind_eq_some_iff.1 h
  refine ⟨s, hs, ?_⟩
  simpa using ht

theorem supervise_of_append (h : supervise (before ++ after) = some t) : ∃ s, supervise before = some s := by
  rw [supervise, List.foldlM_append] at h
  obtain ⟨s, hs, -⟩ := Option.bind_eq_some_iff.1 h
  exact ⟨s, hs⟩

theorem failuresIn_snoc : failuresIn (outcomes ++ [o]) = countFailure (failuresIn outcomes) o := by
  rw [failuresIn, List.foldl_append]
  rfl

/-- Before the conversion overflows the delay is between the base and the cap. -/
theorem listenDelay_bounds (hn : n ≤ 1024) :
    ∃ delay, listenDelay n = some delay ∧ listenBackoffBase ≤ delay ∧ delay ≤ listenBackoffCap := by
  refine ⟨min listenBackoffCap (listenBackoffBase * 2 ^ (n - 1)), ?_, le_min ?_ ?_, min_le_left ..⟩
  · rw [listenDelay, floatPow2, if_pos (by omega)]
    rfl
  · norm_num [listenBackoffBase, listenBackoffCap]
  · have hone : (1 : ℚ) ≤ 2 ^ (n - 1) := one_le_pow₀ (by norm_num)
    exact le_mul_of_one_le_right (by norm_num [listenBackoffBase]) hone

theorem listenDelay_none (hn : 1024 < n) : listenDelay n = none := by
  rw [listenDelay, floatPow2, if_neg (by omega)]
  rfl

theorem listenDelay_some {delay : ℚ} (h : listenDelay n = some delay) :
    listenBackoffBase ≤ delay ∧ delay ≤ listenBackoffCap := by
  have hn : n ≤ 1024 := by
    by_contra hmany
    rw [listenDelay_none (not_le.1 hmany)] at h
    cases h
  obtain ⟨delay', hdelay, hbounds⟩ := listenDelay_bounds hn
  rw [hdelay] at h
  cases h
  exact hbounds

/-- What the code counts after an await. -/
theorem exec_counter (h : s.exec o = some t) : t.consecutive_failures = countFailure s.consecutive_failures o := by
  unfold Supervisor.exec at h
  split at h
  case h_1 | h_5 =>
    split at h
    all_goals cases h
    all_goals simp_all [countFailure]
  case h_2 =>
    split at h
    all_goals cases h
    all_goals rfl
  all_goals cases h
  all_goals rfl

/-- It only sleeps, and only ends by itself, after `aclose`. -/
theorem exec_awaits (h : s.exec o = some t) :
    (∀ delay, t.awaits = .sleep delay → listenDelay s.consecutive_failures = some delay) ∧
      ∀ how, t.awaits = .ended how →
        how = .cancelled ∨ ((∃ raised, o = .closed raised) ∧ listenDelay s.consecutive_failures = none) := by
  unfold Supervisor.exec at h
  split at h
  case h_1 | h_4 | h_5 =>
    split at h
    all_goals cases h
    all_goals simp
  case h_2 raised =>
    split at h
    · rename_i delay hdelay
      cases h
      simp [hdelay]
    · rename_i hnone
      cases h
      simp [hnone]
  all_goals cases h
  all_goals simp

/-- The counter is the number of failures in a row. -/
theorem counter_eq (h : supervise outcomes = some s) : s.consecutive_failures = failuresIn outcomes := by
  induction outcomes using List.reverseRecOn generalizing s with
  | nil =>
    cases h
    rfl
  | append_singleton outcomes o ih =>
    obtain ⟨u, hu, hexec⟩ := supervise_snoc h
    rw [exec_counter hexec, ih hu, failuresIn_snoc]

/-! ## Runs -/

/-- The supervisor survives exactly the outages in which it closes no more than
1024 failed sessions in a row. -/
theorem supervisor_survives_iff (h : supervise outcomes = some t) :
    (∀ before after s, outcomes = before ++ after → supervise before = some s → Survives before s) ↔
      ∀ before raised after, outcomes = before ++ .closed raised :: after → failuresIn before ≤ 1024 := by
  constructor
  · intro hall before raised after hsplit
    by_contra hmany
    rw [← List.singleton_append, ← List.append_assoc] at hsplit
    obtain ⟨s, hs⟩ := supervise_of_append (hsplit ▸ h)
    obtain ⟨u, hu, hexec⟩ := supervise_snoc hs
    have hnone : listenDelay u.consecutive_failures = none := by
      rw [counter_eq hu]
      exact listenDelay_none (not_le.1 hmany)
    have hended : s.awaits = .ended .overflow := by
      unfold Supervisor.exec at hexec
      split at hexec
      all_goals simp_all
      rw [← hexec]
    cases (hall _ _ s hsplit hs).ends _ hended
  · intro hfew before after s hsplit hs
    cases before using List.reverseRecOn with
    | nil =>
      cases hs
      exact ⟨nofun, nofun, fun _ heq => by simp at heq⟩
    | append_singleton before o =>
      obtain ⟨u, hu, hexec⟩ := supervise_snoc hs
      obtain ⟨hsleep, hend⟩ := exec_awaits hexec
      refine ⟨fun how hhow => ?_, fun delay hdelay => listenDelay_some (hsleep delay hdelay), fun before' heq => ?_⟩
      · rcases hend how hhow with hcancelled | ⟨⟨raised, rfl⟩, hnone⟩
        · exact hcancelled
        · rw [List.append_assoc] at hsplit
          obtain ⟨delay, hdelay, -⟩ := listenDelay_bounds (hfew before raised after hsplit)
          rw [counter_eq hu, hdelay] at hnone
          cases hnone
      · obtain ⟨-, ho⟩ := List.append_inj' heq rfl
        cases ho
        rw [exec_counter hexec]
        rfl

/-- Redis is away for `n` rounds. -/
def sampleOutage (n : ℕ) : List ListenOutcome :=
  (List.replicate n [.listened true, .closed true, .slept, .redis false]).flatten

/-- A session that ends, and a subscription that takes its place. -/
def sampleBlip : List ListenOutcome := [.listened false, .closed false, .slept, .redis true, .subscribed false]

theorem sampleBlip_survives_iff :
    supervise sampleBlip = some ⟨.listen, true, 0⟩ ∧
      ((∀ before after s, sampleBlip = before ++ after → supervise before = some s → Survives before s) ↔
        ∀ before raised after, sampleBlip = before ++ .closed raised :: after → failuresIn before ≤ 1024) :=
  ⟨by decide +kernel, supervisor_survives_iff (t := ⟨.listen, true, 0⟩) (by decide +kernel)⟩

/-- The 1025th failure in a row ends the supervisor. -/
theorem outage_ends_supervisor :
    ∃ s, supervise (sampleOutage 1024 ++ [.listened true, .closed true]) = some s ∧ s.awaits = .ended .overflow := by
  refine ⟨⟨.ended .overflow, false, 1025⟩, ?_, rfl⟩
  decide +kernel

end Garant
