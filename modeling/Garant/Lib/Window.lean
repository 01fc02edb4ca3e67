import Garant.Lib.Runs
/-!
# Rolling windows

A log of the times at which something was admitted, oldest first, in any ordered
group of times. `verdict` admits while fewer than `limit` logged times lie in the
window that ends now, and else says how long to wait until the oldest of them has
left it. `Spaced` is what this keeps: times of which no two lie a window apart
are at most `limit`. `verdict_retry` says that the wait is right.
-/

namespace Window
variable {τ : Type} [AddCommGroup τ] [LinearOrder τ]

inductive Verdict (τ : Type)
  | admitted
  | rejected (retry : τ)
deriving DecidableEq

/-- The logged times in the window of length `w` that ends now. -/
def recent (w now : τ) (log : List τ) : List τ := log.filter fun t => now - w < t

def verdict (limit : ℕ) (w : τ) (log : List τ) (now : τ) : Verdict τ :=
  if (recent w now log).length < limit then .admitted
  else .rejected ((recent w now log).head?.elim w fun oldest => oldest + w - now)

/-- The log after the verdict. -/
def record (limit : ℕ) (w : τ) (log : List τ) (now : τ) : List τ :=
  if (recent w now log).length < limit then log ++ [now] else log

/-- Any two times with `p` are less than `w` apart. -/
def Narrow (w : τ) (p : τ → Bool) : Prop := ∀ x y, p x → p y → y - w < x

/-- At most `limit` of the logged times lie less than `w` apart. -/
def Spaced (limit : ℕ) (w : τ) (log : List τ) : Prop := ∀ p, Narrow w p → log.countP p ≤ limit

variable {limit : ℕ} {w now now' a r : τ} {log log' : List τ}

/-! ## The window -/

@[simp] theorem mem_recent {t : τ} : t ∈ recent w now log ↔ t ∈ log ∧ now - w < t := by simp [recent]

theorem recent_append : recent w now (log ++ log') = recent w now log ++ recent w now log' := List.filter_append ..

theorem recent_eq_nil (h : ∀ t ∈ log, t ≤ now - w) : recent w now log = [] :=
  List.filter_eq_nil_iff.2 fun t ht => by simpa using h t ht

/-- In a sorted log the window is what remains after the front has been dropped. -/
theorem dropWhile_eq_recent (h : log.Pairwise (· ≤ ·)) : log.dropWhile (fun t => t ≤ now - w) = recent w now log := by
  induction log with
  | nil => rfl
  | cons t log ih =>
    obtain ⟨hle, hlog⟩ := List.pairwise_cons.1 h
    by_cases ht : t ≤ now - w
    · rw [List.dropWhile_cons_of_pos (by simpa using ht), ih hlog, recent, recent, List.filter_cons_of_neg]
      simpa using ht
    · have hall : ∀ x ∈ t :: log, now - w < x := by
        intro x hx
        rcases List.mem_cons.1 hx with rfl | hx
        · exact not_le.1 ht
        · exact (not_le.1 ht).trans_le (hle x hx)
      rw [List.dropWhile_cons_of_neg (by simpa using ht), recent, List.filter_eq_self.2]
      simpa using hall

/-! ## How many are admitted -/

theorem spaced_nil : Spaced limit w [] := fun _ _ => Nat.zero_le _

/-- The verdict is about the window `(now - w, now]`. -/
theorem length_recent (h : ∀ t ∈ log, t ≤ now) :
    (recent w now log).length = log.countP fun t => now - w < t ∧ t ≤ now := by
  rw [recent, ← List.countP_eq_length_filter]
  refine List.countP_congr fun t ht => ?_
  simp [h t ht]

/-- A time is only added when all that lie less than `w` before it are fewer than `limit`. -/
theorem Spaced.record (hs : Spaced limit w log) : Spaced limit w (record limit w log now) := by
  intro p hp
  rw [Window.record]
  split
  · rename_i hroom
    rw [List.countP_append]
    by_cases hnow : p now
    · have hsub : log.countP p ≤ (recent w now log).length := by
        rw [recent, ← List.countP_eq_length_filter]
        refine List.countP_mono_left fun t _ ht => ?_
        simpa using hp t now ht hnow
      have hone : [now].countP p = 1 := by simp [hnow]
      omega
    · have hnone : [now].countP p = 0 := by simp [hnow]
      rw [hnone]
      exact hs p hp
  · exact hs p hp

theorem verdict_rejected (h : verdict limit w log now = .rejected r) : limit ≤ (recent w now log).length := by
  rw [verdict] at h
  split at h
  · cases h
  · omega

/-! ## Intervals, and waiting after a rejection -/

variable [IsOrderedAddMonoid τ]

theorem narrow_Ico : Narrow w (fun t => a ≤ t ∧ t < a + w) := by
  intro x y hx hy
  simp only [decide_eq_true_eq] at hx hy
  exact (sub_lt_iff_lt_add.2 hy.2).trans_le hx.1

theorem narrow_Ioc : Narrow w (fun t => a < t ∧ t ≤ a + w) := by
  intro x y hx hy
  simp only [decide_eq_true_eq] at hx hy
  exact (sub_le_iff_le_add.2 hy.2).trans_lt hx.1

/-- What has left the window does not come back. -/
theorem recent_recent (h : now ≤ now') : recent w now' (recent w now log) = recent w now' log := by
  rw [recent, recent, List.filter_filter, recent]
  refine List.filter_congr fun t _ => ?_
  have hle : now - w ≤ now' - w := sub_le_sub_right h w
  by_cases ht : now' - w < t
  · simp [ht, hle.trans_lt ht]
  · simp [ht]

theorem length_recent_le (hs : Spaced limit w log) (h : ∀ t ∈ log, t ≤ now) : (recent w now log).length ≤ limit := by
  rw [length_recent h]
  refine hs _ ?_
  have hnarrow : Narrow w (fun t => now - w < t ∧ t ≤ now - w + w) := narrow_Ioc
  rwa [sub_add_cancel] at hnarrow

/-- After the wait the oldest time has left the window, so there is room again. -/
theorem verdict_retry (hlimit : 0 < limit) (hs : Spaced limit w log) (hle : ∀ t ∈ log, t ≤ now)
    (h : verdict limit w log now = .rejected r) (hwait : now + r ≤ now') : verdict limit w log now' = .admitted := by
  have hfull : limit ≤ (recent w now log).length := verdict_rejected h
  cases hrecent : recent w now log with
  | nil =>
    rw [hrecent] at hfull
    simp only [List.length_nil] at hfull
    omega
  | cons oldest rest =>
    have hnew : now - w < oldest := (mem_recent.1 (by rw [hrecent]; exact List.mem_cons_self)).2
    have hr : r = oldest + w - now := by
      rw [verdict, if_neg (by omega), hrecent] at h
      cases h
      rfl
    have hgone : oldest + w ≤ now' := by
      rw [hr, add_sub_cancel] at hwait
      exact hwait
    have hlater : now ≤ now' := (sub_lt_iff_lt_add.1 hnew).le.trans hgone
    have hlen : (recent w now log).length ≤ limit := length_recent_le hs hle
    have hfewer : (recent w now' log).length ≤ rest.length := by
      rw [← recent_recent hlater, hrecent, recent, List.filter_cons_of_neg]
      · exact List.length_filter_le ..
      · simpa using le_sub_iff_add_le.2 hgone
    rw [hrecent, List.length_cons] at hlen
    exact if_pos (by omega)

end Window
