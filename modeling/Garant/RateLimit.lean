import Garant.Lib.Window
/-!
# The rate limiter

`_hit_inmemory` and `_hit_redis` for any number of keys; a key is a scope with a
principal, and each has its limit and window. Times are integers, in
microseconds as they are sent to Redis, and the sorted set is the entries of the
key with its time to live in milliseconds. Both backends implement the rolling
log of `Window` (`inmemory_log`, `redis_log`), so they answer every sequence of
hits alike, and `backends_agree` gives what both enforce.
-/

namespace Garant

/-- A hit, with what it reads from `time.time` and `time.monotonic_ns`. -/
structure Hit (K : Type) where
  key : K
  now : ℤ
  monotonic_ns : ℕ
deriving DecidableEq

/-- How a hit ends: it passes, or as a 429, a 503 or an `IndexError`. -/
inductive HitAnswer
  | admitted
  | tooMany (retry_after : ℤ)
  | unavailable
  | crashed
deriving DecidableEq

/-- A member of the sorted set: `{now}:{monotonic_ns}:{counter}`. -/
structure HitMember where
  now : ℤ
  monotonic_ns : ℕ
  counter : ℕ
deriving DecidableEq

structure ScoredHit where
  score : ℤ
  member : HitMember
deriving DecidableEq

structure SortedHits where
  entries : List ScoredHit
  expires : ℤ

/-- Whether `get_redis` gives a client, and whether its script answers. -/
inductive RedisState
  | missing
  | failing
  | up

/-- `_buckets`, the keys in Redis and `_rl_counter`. -/
structure Limiter (K : Type) where
  buckets : K → List ℤ
  store : K → Option SortedHits
  rl_counter : ℕ

namespace SortedHits

/-- Redis drops a key whose time to live is over. -/
def live (now : ℤ) (z : Option SortedHits) : Option SortedHits := z.filter fun z => now / 1000 ≤ z.expires

def scored (z : Option SortedHits) : List ScoredHit := z.elim [] entries

/-- `ZREMRANGEBYSCORE key -inf max`; a sorted set without entries is no key. -/
def zremrangebyscore (z : Option SortedHits) (max : ℤ) : Option SortedHits :=
  z.bind fun z =>
    let kept := z.entries.filter fun e => max < e.score
    if kept = [] then none else some { z with entries := kept }

/-- `ZADD`, then `PEXPIRE` of `milliseconds`. -/
def zadd (z : Option SortedHits) (score : ℤ) (member : HitMember) (now milliseconds : ℤ) : SortedHits :=
  ⟨⟨score, member⟩ :: (scored z).filter (fun e => e.member ≠ member), now / 1000 + milliseconds⟩

end SortedHits

/-- `math.ceil((window + 1) * 1000)`. -/
def expiry (window : ℤ) : ℤ := -(-(window + 1000000) / 1000)

/-- What the script leaves of a key before it counts. -/
def keptBy (z : Option SortedHits) (window now : ℤ) : Option SortedHits :=
  SortedHits.zremrangebyscore (SortedHits.live now z) (now - window)

/-- `_RL_LUA`: whether the hit is admitted, and else the time to wait. -/
def rlLua (z : Option SortedHits) (now window : ℤ) (limit : ℕ) (member : HitMember) :
    (Bool × ℤ) × Option SortedHits :=
  let kept := keptBy z window now
  let count := (SortedHits.scored kept).length
  if limit ≤ count then
    let retry := match ((SortedHits.scored kept).map (·.score)).min? with
      | some oldest => if oldest + window - now < 0 then 0 else oldest + window - now
      | none => window
    ((false, retry), kept)
  else ((true, 0), some (SortedHits.zadd kept now member now (expiry window)))

section
variable {K : Type} [DecidableEq K] (limit : K → ℕ) (window : K → ℤ)

def hitInmemory (s : Limiter K) (h : Hit K) : HitAnswer × Limiter K :=
  let cutoff := h.now - window h.key
  let bucket := (s.buckets h.key).dropWhile fun t => t ≤ cutoff
  if limit h.key ≤ bucket.length then
    let answer := match bucket with
      | oldest :: _ => .tooMany (max 0 (oldest + window h.key - h.now))
      | [] => .crashed
    (answer, { s with buckets := Function.update s.buckets h.key bucket })
  else (.admitted, { s with buckets := Function.update s.buckets h.key (bucket ++ [h.now]) })

/-- The fallback, unless Redis is required. -/
def hitWithoutRedis (required : Bool) (s : Limiter K) (h : Hit K) : HitAnswer × Limiter K :=
  if required then (.unavailable, s) else hitInmemory limit window s h

/-- `_hit_redis`; `required` is `effective_require_redis_for_rate_limit()`. -/
def hitRedis (required : Bool) (redis : RedisState) (s : Limiter K) (h : Hit K) : HitAnswer × Limiter K :=
  match redis with
  | .missing => hitWithoutRedis limit window required s h
  | .failing => hitWithoutRedis limit window required { s with rl_counter := (s.rl_counter + 1) % 2 ^ 24 } h
  | .up =>
    let rl_counter := (s.rl_counter + 1) % 2 ^ 24
    let member : HitMember := ⟨h.now, h.monotonic_ns, rl_counter⟩
    let result := rlLua (s.store h.key) h.now (window h.key) (limit h.key) member
    (if result.1.1 then .admitted else .tooMany result.1.2,
      { s with store := Function.update s.store h.key result.2, rl_counter })

/-! ## The log -/

def HitAnswer.ofVerdict : Window.Verdict ℤ → HitAnswer
  | .admitted => .admitted
  | .rejected retry => .tooMany retry

/-- What a limiter is for: a rolling log for each key. -/
def hitLog (logs : K → List ℤ) (h : Hit K) : HitAnswer × (K → List ℤ) :=
  (.ofVerdict (Window.verdict (limit h.key) (window h.key) (logs h.key) h.now),
    Function.update logs h.key (Window.record (limit h.key) (window h.key) (logs h.key) h.now))

/-- The clock does not go back. -/
def InOrder (hits : List (Hit K)) : Prop := hits.Pairwise fun a b => a.now ≤ b.now

/-- The counter comes round after `2 ^ 24` hits, and takes more than a nanosecond for it. -/
def ClockTicks (hits : List (Hit K)) : Prop :=
  ∀ i j a b, hits[i]? = some a → hits[j]? = some b → i < j → i % 2 ^ 24 = j % 2 ^ 24 → a.monotonic_ns < b.monotonic_ns

/-- The times of a key at which a hit was admitted. -/
def admittedAt (answers : List (Hit K × HitAnswer)) (k : K) : List ℤ :=
  (answers.filter fun x => x.1.key = k ∧ x.2 = .admitted).map fun x => x.1.now
end

variable {K : Type} {limit : K → ℕ} {window : K → ℤ} {hits done rest : List (Hit K)} {h : Hit K}
  {log bucket : List ℤ} {now now' w : ℤ} {z : Option SortedHits} {k : K}

/-- No hit so far is later. -/
def NotBefore (done : List (Hit K)) (now : ℤ) : Prop := ∀ h ∈ done, h.now ≤ now

theorem InOrder.notBefore (ho : InOrder hits) (hsplit : hits = done ++ h :: rest) : NotBefore done h.now := by
  subst hsplit
  exact fun a ha => (List.pairwise_append.1 ho).2.2 a ha _ List.mem_cons_self

theorem NotBefore.of_append (hb : NotBefore (done ++ [h]) now) : NotBefore done now ∧ h.now ≤ now :=
  ⟨fun a ha => hb a (List.mem_append_left _ ha), hb h (by simp)⟩

/-- A log of hits so far. -/
structure Logged (done : List (Hit K)) (limit : ℕ) (w : ℤ) (log : List ℤ) : Prop where
  sorted : log.Pairwise (· ≤ ·)
  past : ∀ now, NotBefore done now → ∀ t ∈ log, t ≤ now
  spaced : Window.Spaced limit w log

theorem Logged.nil {limit : ℕ} : Logged ([] : List (Hit K)) limit w [] where
  sorted := .nil
  past _ _ _ ht := absurd ht List.not_mem_nil
  spaced := Window.spaced_nil

theorem Logged.skip {limit : ℕ} (hl : Logged done limit w log) : Logged (done ++ [h]) limit w log :=
  ⟨hl.sorted, fun now hb => hl.past now hb.of_append.1, hl.spaced⟩

theorem Logged.record {limit : ℕ} (hl : Logged done limit w log) (hb : NotBefore done h.now) :
    Logged (done ++ [h]) limit w (Window.record limit w log h.now) where
  sorted := by
    rw [Window.record]
    split
    · exact List.pairwise_append.2 ⟨hl.sorted, List.pairwise_singleton .., fun t ht u hu => by
        rw [List.mem_singleton.1 hu]
        exact hl.past _ hb t ht⟩
    · exact hl.sorted
  past := by
    intro now hnow t ht
    obtain ⟨hdone, hle⟩ := hnow.of_append
    rw [Window.record] at ht
    split at ht
    · rcases List.mem_append.1 ht with ht | ht
      · exact hl.past now hdone t ht
      · rwa [List.mem_singleton.1 ht]
    · exact hl.past now hdone t ht
  spaced := hl.spaced.record

/-- The logs after some hits. -/
def LogsOk (limit : K → ℕ) (window : K → ℤ) (done : List (Hit K)) (logs : K → List ℤ) : Prop :=
  ∀ k, Logged done (limit k) (window k) (logs k)

/-- The verdict on a window that is full, by its oldest time. -/
theorem verdict_full {limit : ℕ} {oldest : ℤ} {others : List ℤ} (h : Window.recent w now log = oldest :: others)
    (hfull : limit ≤ (oldest :: others).length) :
    Window.verdict limit w log now = .rejected (oldest + w - now) ∧ 0 < oldest + w - now := by
  have hnew : now - w < oldest := (Window.mem_recent.1 (by rw [h]; exact List.mem_cons_self)).2
  refine ⟨?_, by omega⟩
  rw [Window.verdict, h, if_neg (by omega)]
  rfl

/-! ## What a bucket holds -/

/-- A bucket is what is left of the log, and nothing that is still in the window is gone. -/
structure Follows (done : List (Hit K)) (w : ℤ) (bucket log : List ℤ) : Prop where
  sub : bucket.Sublist log
  same : ∀ now, NotBefore done now → Window.recent w now bucket = Window.recent w now log

theorem Follows.skip (hf : Follows done w bucket log) : Follows (done ++ [h]) w bucket log :=
  ⟨hf.sub, fun now hb => hf.same now hb.of_append.1⟩

/-- The bucket of the key after its front has been dropped. -/
theorem Follows.drop {limit : ℕ} (hl : Logged done limit w log) (hf : Follows done w bucket log)
    (hb : NotBefore done h.now) : bucket.dropWhile (fun t => t ≤ h.now - w) = Window.recent w h.now log := by
  rw [Window.dropWhile_eq_recent (hl.sorted.sublist hf.sub), hf.same _ hb]

theorem Follows.recent : Follows (done ++ [h]) w (Window.recent w h.now log) log :=
  ⟨List.filter_sublist, fun _ hb => Window.recent_recent hb.of_append.2⟩

theorem Follows.append : Follows (done ++ [h]) w (Window.recent w h.now log ++ [h.now]) (log ++ [h.now]) where
  sub := List.filter_sublist.append_right _
  same now hb := by rw [Window.recent_append, Window.recent_append, Window.recent_recent hb.of_append.2]

/-! ## What a key in Redis holds -/

namespace SortedHits

/-- The admitted times a key still holds. -/
def scores (z : Option SortedHits) : List ℤ := (scored z).map (·.score)

theorem scored_zremrangebyscore {m : ℤ} : scored (zremrangebyscore z m) = (scored z).filter fun e => m < e.score := by
  cases z with
  | none => rfl
  | some z =>
    simp only [zremrangebyscore, Option.bind_some]
    split
    · rename_i hnone
      exact hnone.symm
    · rfl

theorem scores_zremrangebyscore : scores (zremrangebyscore z (now - w)) = Window.recent w now (scores z) := by
  rw [scores, scored_zremrangebyscore, scores, Window.recent, List.filter_map]
  rfl

theorem zremrangebyscore_expires {m : ℤ} {x : SortedHits} (h : zremrangebyscore z m = some x) :
    ∃ y, z = some y ∧ x.expires = y.expires := by
  obtain ⟨y, rfl, hx⟩ := Option.bind_eq_some_iff.1 h
  simp only at hx
  split at hx
  · cases hx
  · cases hx
    exact ⟨y, rfl, rfl⟩

theorem live_some {a : SortedHits} : live now (some a) = if now / 1000 ≤ a.expires then some a else none := by
  simp [live, Option.filter]

/-- A key that has expired stays so, and what it loses before does not matter later. -/
theorem recent_live_zremrangebyscore (h : now ≤ now') :
    Window.recent w now' (scores (live now' (zremrangebyscore (live now z) (now - w)))) =
      Window.recent w now' (scores (live now' z)) := by
  cases z with
  | none => rfl
  | some a =>
    rw [live_some, live_some]
    by_cases hlater : now' / 1000 ≤ a.expires
    · rw [if_pos hlater, if_pos (by omega)]
      cases hkept : zremrangebyscore (some a) (now - w) with
      | none =>
        have hempty : Window.recent w now (scores (some a)) = [] := by
          rw [← scores_zremrangebyscore, hkept]
          rfl
        have hlate : Window.recent w now' (scores (some a)) = [] := by
          rw [← Window.recent_recent h, hempty]
          rfl
        exact hlate.symm
      | some b =>
        obtain ⟨_, ⟨⟩, hb⟩ := zremrangebyscore_expires hkept
        rw [live_some, hb, if_pos hlater, ← hkept, scores_zremrangebyscore, Window.recent_recent h]
    · rw [if_neg hlater]
      split
      · cases hkept : zremrangebyscore (some a) (now - w) with
        | none => rfl
        | some b =>
          obtain ⟨_, ⟨⟩, hb⟩ := zremrangebyscore_expires hkept
          rw [live_some, hb, if_neg hlater]
      · rfl

/-- When the key expires, all it holds has left the window. -/
theorem expired_past {a : SortedHits} (ha : a.expires = now / 1000 + expiry w) (hgone : ¬now' / 1000 ≤ a.expires) :
    now ≤ now' - w := by
  rw [ha, expiry] at hgone
  omega

end SortedHits

/-- The member that hit number `i` draws, when the counter starts at `c₀`. -/
def memberOf (c₀ i : ℕ) (h : Hit K) : HitMember := ⟨h.now, h.monotonic_ns, (c₀ + i + 1) % 2 ^ 24⟩

/-- Members drawn by different hits differ. -/
theorem ClockTicks.memberOf_ne {c₀ i : ℕ} {a : Hit K} (ht : ClockTicks hits) (hsplit : hits = done ++ h :: rest)
    (hi : done[i]? = some a) : memberOf c₀ i a ≠ memberOf c₀ done.length h := by
  intro heq
  obtain ⟨hlt, -⟩ := List.getElem?_eq_some_iff.1 hi
  have ha : hits[i]? = some a := by rw [hsplit, List.getElem?_append_left hlt, hi]
  have hh : hits[done.length]? = some h := by simp [hsplit]
  simp only [memberOf, HitMember.mk.injEq] at heq
  have hticks := ht i done.length a h ha hh hlt (by omega)
  omega

/-- A key holds what the log has in the window, by entries of hits so far. -/
structure FollowsSet (done : List (Hit K)) (w : ℤ) (c₀ : ℕ) (z : Option SortedHits) (log : List ℤ) : Prop where
  same : ∀ now, NotBefore done now →
    (Window.recent w now (SortedHits.scores (SortedHits.live now z))).Perm (Window.recent w now log)
  drawn : ∀ e ∈ SortedHits.scored z, ∃ i a, done[i]? = some a ∧ e.member = memberOf c₀ i a

theorem getElem?_snoc {i : ℕ} {a : Hit K} (hi : done[i]? = some a) : (done ++ [h])[i]? = some a := by
  rw [List.getElem?_append_left (List.getElem?_eq_some_iff.1 hi).1, hi]

theorem FollowsSet.skip {c₀ : ℕ} (hf : FollowsSet done w c₀ z log) : FollowsSet (done ++ [h]) w c₀ z log where
  same now hb := hf.same now hb.of_append.1
  drawn e he := by
    obtain ⟨i, a, hi, hm⟩ := hf.drawn e he
    exact ⟨i, a, getElem?_snoc hi, hm⟩

theorem scored_live (e : ScoredHit) (he : e ∈ SortedHits.scored (SortedHits.live now z)) : e ∈ SortedHits.scored z := by
  cases z with
  | none => exact he
  | some a =>
    rw [SortedHits.live_some] at he
    split at he
    · exact he
    · cases he

theorem scored_keptBy (e : ScoredHit) (he : e ∈ SortedHits.scored (keptBy z w now)) : e ∈ SortedHits.scored z := by
  rw [keptBy, SortedHits.scored_zremrangebyscore] at he
  exact scored_live e (List.mem_of_mem_filter he)

/-- The key and the log have the same times in the window. -/
theorem FollowsSet.kept {c₀ : ℕ} (hf : FollowsSet done w c₀ z log) (hb : NotBefore done h.now) :
    (SortedHits.scores (keptBy z w h.now)).Perm (Window.recent w h.now log) := by
  rw [keptBy, SortedHits.scores_zremrangebyscore]
  exact hf.same _ hb

theorem FollowsSet.reject {c₀ : ℕ} (hf : FollowsSet done w c₀ z log) :
    FollowsSet (done ++ [h]) w c₀ (keptBy z w h.now) log where
  same now hb := by
    rw [keptBy, SortedHits.recent_live_zremrangebyscore hb.of_append.2]
    exact hf.same now hb.of_append.1
  drawn e he := hf.skip.drawn e (scored_keptBy e he)

theorem FollowsSet.admit {limit c₀ : ℕ} (hf : FollowsSet done w c₀ z log) (hl : Logged done limit w log)
    (hb : NotBefore done h.now) (hnew : ∀ i a, done[i]? = some a → memberOf c₀ i a ≠ memberOf c₀ done.length h) :
    FollowsSet (done ++ [h]) w c₀
      (some (SortedHits.zadd (keptBy z w h.now) h.now (memberOf c₀ done.length h) h.now (expiry w))) (log ++ [h.now]) where
  same now hnow := by
    obtain ⟨hdone, hle⟩ := hnow.of_append
    rw [SortedHits.live_some]
    split
    · have hkeep : (SortedHits.scored (keptBy z w h.now)).filter (fun e => e.member ≠ memberOf c₀ done.length h) =
          SortedHits.scored (keptBy z w h.now) := by
        refine List.filter_eq_self.2 fun e he => ?_
        obtain ⟨i, a, hi, hm⟩ := hf.drawn e (scored_keptBy e he)
        simpa [hm] using hnew i a hi
      have hscores : SortedHits.scores
          (some (SortedHits.zadd (keptBy z w h.now) h.now (memberOf c₀ done.length h) h.now (expiry w))) =
          h.now :: SortedHits.scores (keptBy z w h.now) := by
        simp only [SortedHits.scores, SortedHits.scored, SortedHits.zadd, Option.elim_some, List.map_cons] at hkeep ⊢
        rw [hkeep]
      rw [hscores]
      have hperm : (h.now :: SortedHits.scores (keptBy z w h.now)).Perm (Window.recent w h.now log ++ [h.now]) :=
        ((hf.kept hb).cons _).trans (List.perm_append_singleton _ _).symm
      refine (hperm.filter _).trans ?_
      show (Window.recent w now _).Perm _
      rw [Window.recent_append, Window.recent_append, Window.recent_recent hle]
    · rename_i hgone
      have hpast : h.now ≤ now - w := SortedHits.expired_past rfl hgone
      have hempty : Window.recent w now (log ++ [h.now]) = [] := by
        refine Window.recent_eq_nil fun t ht => ?_
        rcases List.mem_append.1 ht with ht | ht
        · exact (hl.past _ hb t ht).trans hpast
        · rwa [List.mem_singleton.1 ht]
      rw [hempty]
      rfl
  drawn e he := by
    rcases List.mem_cons.1 he with rfl | he
    · exact ⟨done.length, h, by simp, rfl⟩
    · exact hf.skip.drawn e (scored_keptBy e (List.mem_of_mem_filter he))

/-- The least score of a set is the oldest time of the log. -/
theorem min_scores {oldest : ℤ} {others l : List ℤ} (hsorted : (oldest :: others).Pairwise (· ≤ ·))
    (hperm : l.Perm (oldest :: others)) : l.min? = some oldest := by
  refine List.min?_eq_some_iff.2 ⟨hperm.mem_iff.2 List.mem_cons_self, fun t ht => ?_⟩
  rcases List.mem_cons.1 (hperm.mem_iff.1 ht) with rfl | ht
  · exact le_rfl
  · exact (List.pairwise_cons.1 hsorted).1 t ht

theorem rlLua_step {limit c₀ : ℕ} (hlimit : 1 ≤ limit) (hl : Logged done limit w log) (hf : FollowsSet done w c₀ z log)
    (hb : NotBefore done h.now)
    (hnew : ∀ i a, done[i]? = some a → memberOf c₀ i a ≠ memberOf c₀ done.length h) :
    (if (rlLua z h.now w limit (memberOf c₀ done.length h)).1.1 then HitAnswer.admitted
        else .tooMany (rlLua z h.now w limit (memberOf c₀ done.length h)).1.2) =
      .ofVerdict (Window.verdict limit w log h.now) ∧
    FollowsSet (done ++ [h]) w c₀ (rlLua z h.now w limit (memberOf c₀ done.length h)).2
      (Window.record limit w log h.now) := by
  have hkept := hf.kept hb
  have hlen : (SortedHits.scored (keptBy z w h.now)).length = (Window.recent w h.now log).length := by
    rw [← hkept.length_eq, SortedHits.scores, List.length_map]
  simp only [rlLua, hlen]
  by_cases hfull : limit ≤ (Window.recent w h.now log).length
  · have hnot : ¬(Window.recent w h.now log).length < limit := not_lt.2 hfull
    rw [if_pos hfull, Window.record, if_neg hnot]
    refine ⟨?_, hf.reject⟩
    cases hrecent : Window.recent w h.now log with
    | nil =>
      rw [hrecent, List.length_nil] at hfull
      omega
    | cons oldest others =>
      rw [hrecent] at hfull hkept
      obtain ⟨hverdict, hpos⟩ := verdict_full hrecent hfull
      have hsorted : (oldest :: others).Pairwise (· ≤ ·) := by
        rw [← hrecent]
        exact hl.sorted.filter _
      have hmin : ((SortedHits.scored (keptBy z w h.now)).map (·.score)).min? = some oldest := min_scores hsorted hkept
      rw [hverdict, hmin]
      simp only [if_neg hpos.le.not_gt]
      rfl
  · have hroom : (Window.recent w h.now log).length < limit := not_le.1 hfull
    rw [if_neg hfull, Window.record, if_pos hroom, Window.verdict, if_pos hroom]
    exact ⟨rfl, hf.admit hl hb hnew⟩

/-! ## Both backends keep the log -/

variable [DecidableEq K]

theorem LogsOk.step {logs : K → List ℤ} (hl : LogsOk limit window done logs) (hb : NotBefore done h.now) :
    LogsOk limit window (done ++ [h]) (hitLog limit window logs h).2 := by
  intro k
  simp only [hitLog]
  by_cases hk : k = h.key
  · subst hk
    rw [Function.update_self]
    exact (hl h.key).record hb
  · rw [Function.update_of_ne hk]
    exact (hl k).skip

theorem hitInmemory_step {s : Limiter K} {logs : K → List ℤ} (hlimit : ∀ k, 1 ≤ limit k)
    (hl : LogsOk limit window done logs) (hb : NotBefore done h.now)
    (hf : ∀ k, Follows done (window k) (s.buckets k) (logs k)) :
    (hitInmemory limit window s h).1 = (hitLog limit window logs h).1 ∧
      ∀ k, Follows (done ++ [h]) (window k) ((hitInmemory limit window s h).2.buckets k)
        ((hitLog limit window logs h).2 k) := by
  have hdrop := (hf h.key).drop (hl h.key) hb
  have hothers : ∀ {b l : List ℤ}, Follows (done ++ [h]) (window h.key) b l →
      ∀ k, Follows (done ++ [h]) (window k) (Function.update s.buckets h.key b k) (Function.update logs h.key l k) := by
    intro b l hnew k
    by_cases hk : k = h.key
    · subst hk
      rwa [Function.update_self, Function.update_self]
    · rw [Function.update_of_ne hk, Function.update_of_ne hk]
      exact (hf k).skip
  simp only [hitInmemory, hitLog, hdrop]
  split
  · rename_i hfull
    cases hrecent : Window.recent (window h.key) h.now (logs h.key) with
    | nil =>
      rw [hrecent] at hfull
      have := hlimit h.key
      simp only [List.length_nil] at hfull
      omega
    | cons oldest others =>
      rw [hrecent] at hfull
      obtain ⟨hverdict, hpos⟩ := verdict_full hrecent hfull
      refine ⟨?_, hothers ?_⟩
      · rw [hverdict]
        exact congrArg HitAnswer.tooMany (max_eq_right hpos.le)
      · rw [← hrecent, Window.record, if_neg (by rw [hrecent]; omega)]
        exact .recent
  · rename_i hroom
    refine ⟨?_, hothers ?_⟩
    · rw [Window.verdict, if_pos (by omega)]
      rfl
    · rw [Window.record, if_pos (by omega)]
      exact .append

theorem inmemory_log {s : Limiter K} (hs : ∀ k, s.buckets k = []) (hlimit : ∀ k, 1 ≤ limit k) (ho : InOrder hits) :
    transcript (hitInmemory limit window) s hits = transcript (hitLog limit window) (fun _ => []) hits := by
  refine transcript_eq (R := fun done s logs =>
    LogsOk limit window done logs ∧ ∀ k, Follows done (window k) (s.buckets k) (logs k)) ⟨fun _ => .nil, ?_⟩ ?_
  · intro k
    rw [hs k]
    exact ⟨.refl _, fun _ _ => rfl⟩
  · rintro done h rest s logs hsplit ⟨hl, hf⟩
    have hb : NotBefore done h.now := ho.notBefore hsplit.symm
    obtain ⟨hsame, hnext⟩ := hitInmemory_step hlimit hl hb hf
    exact ⟨hsame, hl.step hb, hnext⟩

theorem redis_log {s : Limiter K} {required : Bool} (hs : ∀ k, s.store k = none) (hlimit : ∀ k, 1 ≤ limit k)
    (ho : InOrder hits) (ht : ClockTicks hits) :
    transcript (hitRedis limit window required .up) s hits = transcript (hitLog limit window) (fun _ => []) hits := by
  refine transcript_eq (R := fun done r logs => LogsOk limit window done logs ∧
    r.rl_counter % 2 ^ 24 = (s.rl_counter + done.length) % 2 ^ 24 ∧
      ∀ k, FollowsSet done (window k) s.rl_counter (r.store k) (logs k)) ⟨fun _ => .nil, rfl, ?_⟩ ?_
  · intro k
    rw [hs k]
    exact ⟨fun _ _ => .refl _, fun e he => by cases he⟩
  · rintro done h rest r logs hsplit ⟨hl, hcounter, hf⟩
    have hb : NotBefore done h.now := ho.notBefore hsplit.symm
    have hdraw : (⟨h.now, h.monotonic_ns, (r.rl_counter + 1) % 2 ^ 24⟩ : HitMember) =
        memberOf s.rl_counter done.length h := by
      simp only [memberOf, HitMember.mk.injEq, true_and]
      omega
    obtain ⟨hsame, hnext⟩ := rlLua_step (hlimit h.key) (hl h.key) (hf h.key) hb
      fun i a hi => ht.memberOf_ne hsplit.symm hi
    simp only [hitRedis, hitLog, hdraw]
    refine ⟨hsame, hl.step hb, ?_, fun k => ?_⟩
    · rw [List.length_append, List.length_singleton]
      omega
    · by_cases hk : k = h.key
      · subst hk
        rwa [Function.update_self, Function.update_self]
      · rw [Function.update_of_ne hk, Function.update_of_ne hk]
        exact (hf k).skip

/-! ## What the limiter enforces -/

/-- The logs after some hits are the times admitted so far. -/
theorem hitLog_admittedAt (k : K) :
    stateAfter (hitLog limit window) (fun _ => []) hits k =
      admittedAt (transcript (hitLog limit window) (fun _ => []) hits) k := by
  induction hits using List.reverseRecOn with
  | nil => rfl
  | append_singleton hits h ih =>
    rw [stateAfter_append, transcript_append, admittedAt, List.filter_append, List.map_append, ← admittedAt, ← ih]
    generalize stateAfter (hitLog limit window) (fun _ => []) hits = logs
    simp only [transcript, hitLog]
    by_cases hk : k = h.key
    · subst hk
      rw [Function.update_self, Window.record, Window.verdict]
      split <;> simp [HitAnswer.ofVerdict]
    · rw [Function.update_of_ne hk, List.filter_cons_of_neg (by simp [Ne.symm hk])]
      simp

theorem logsOk_after (ho : InOrder hits) : LogsOk limit window hits (stateAfter (hitLog limit window) (fun _ => []) hits) :=
  stateAfter_invariant (fun _ => .nil) fun _ _ _ _ hsplit hl => hl.step (ho.notBefore hsplit.symm)

/-- What a transcript shows of a limiter: every hit passes or gets a 429, at most
`limit` pass in a window, one is refused only when `limit` passed in the window
before it, and one that comes after the wait, with none of its key in between, passes. -/
structure Enforces (limit : K → ℕ) (window : K → ℤ) (answers : List (Hit K × HitAnswer)) : Prop where
  answered : ∀ x ∈ answers, x.2 = .admitted ∨ ∃ retry, x.2 = .tooMany retry
  at_most_Ico : ∀ k a, (admittedAt answers k).countP (fun t => a ≤ t ∧ t < a + window k) ≤ limit k
  at_most_Ioc : ∀ k a, (admittedAt answers k).countP (fun t => a < t ∧ t ≤ a + window k) ≤ limit k
  earned : ∀ before h retry after, answers = before ++ (h, .tooMany retry) :: after →
    limit h.key ≤ (admittedAt before h.key).countP fun t => h.now - window h.key < t ∧ t ≤ h.now
  waited : ∀ before h retry between later answer after,
    answers = before ++ (h, .tooMany retry) :: (between ++ (later, answer) :: after) → later.key = h.key →
      (∀ x ∈ between, x.1.key ≠ h.key) → h.now + retry ≤ later.now → answer = .admitted

theorem ofVerdict_tooMany {v : Window.Verdict ℤ} {retry : ℤ} (h : HitAnswer.tooMany retry = .ofVerdict v) :
    v = .rejected retry := by
  cases v with
  | admitted => cases h
  | rejected r =>
    cases h
    rfl

/-- Hits on other keys leave the log of a key as it is. -/
theorem stateAfter_other {logs : K → List ℤ} (h : ∀ x ∈ hits, x.key ≠ k) :
    stateAfter (hitLog limit window) logs hits k = logs k := by
  induction hits generalizing logs with
  | nil => rfl
  | cons x hits ih =>
    show stateAfter (hitLog limit window) _ hits k = _
    rw [ih fun y hy => h y (List.mem_cons_of_mem _ hy)]
    exact Function.update_of_ne (h x List.mem_cons_self).symm _ _

theorem hitLog_enforces (hlimit : ∀ k, 1 ≤ limit k) (ho : InOrder hits) :
    Enforces limit window (transcript (hitLog limit window) (fun _ => []) hits) where
  answered := by
    intro x hx
    obtain ⟨before, after, hsplit⟩ := List.append_of_mem hx
    obtain ⟨hits₁, hits₂, -, -, hx, -⟩ := transcript_split hsplit
    rw [hx]
    show HitAnswer.ofVerdict _ = _ ∨ ∃ retry, HitAnswer.ofVerdict _ = _
    cases Window.verdict (limit x.1.key) (window x.1.key)
      (stateAfter (hitLog limit window) (fun _ => []) hits₁ x.1.key) x.1.now with
    | admitted => exact .inl rfl
    | rejected retry => exact .inr ⟨retry, rfl⟩
  at_most_Ico k a := by
    rw [← hitLog_admittedAt]
    exact (logsOk_after ho k).spaced _ Window.narrow_Ico
  at_most_Ioc k a := by
    rw [← hitLog_admittedAt]
    exact (logsOk_after ho k).spaced _ Window.narrow_Ioc
  earned before h retry after hsplit := by
    obtain ⟨hits₁, hits₂, rfl, rfl, hx, -⟩ := transcript_split hsplit
    have ho₁ : InOrder hits₁ := (List.pairwise_append.1 ho).1
    have hfull := Window.verdict_rejected (ofVerdict_tooMany hx)
    rwa [Window.length_recent ((logsOk_after ho₁ h.key).past _ (ho.notBefore rfl)), hitLog_admittedAt] at hfull
  waited before h retry between later answer after hsplit hkey hothers hwait := by
    obtain ⟨hits₁, hits₂, rfl, rfl, hx, hrest⟩ := transcript_split hsplit
    obtain ⟨hits₃, hits₄, rfl, rfl, hy, -⟩ := transcript_split hrest.symm
    have ho₁ : InOrder hits₁ := (List.pairwise_append.1 ho).1
    have hl : LogsOk limit window hits₁ _ := logsOk_after ho₁
    have hrejected := ofVerdict_tooMany hx
    -- The refused hit and the hits of other keys leave the log of the key alone.
    have hrefused : stateAfter (hitLog limit window) (fun _ => []) (hits₁ ++ [h]) h.key =
        stateAfter (hitLog limit window) (fun _ => []) hits₁ h.key := by
      rw [stateAfter_append]
      show Function.update _ _ _ _ = _
      rw [Function.update_self, Window.record, if_neg (not_lt.2 (Window.verdict_rejected hrejected))]
    have hkeys : ∀ x ∈ hits₃, x.key ≠ h.key := by
      intro x hx₃
      obtain ⟨o, hx₃⟩ : ∃ o, (x, o) ∈ transcript (hitLog limit window)
          (stateAfter (hitLog limit window) (fun _ => []) (hits₁ ++ [h])) hits₃ := exists_answer hx₃
      exact hothers (x, o) hx₃
    have hlog : stateAfter (hitLog limit window)
        (stateAfter (hitLog limit window) (fun _ => []) (hits₁ ++ [h])) hits₃ h.key =
        stateAfter (hitLog limit window) (fun _ => []) hits₁ h.key := (stateAfter_other hkeys).trans hrefused
    have hpass := Window.verdict_retry (hlimit h.key) (hl h.key).spaced ((hl h.key).past _ (ho.notBefore rfl))
      hrejected hwait
    refine hy.trans ?_
    show HitAnswer.ofVerdict (Window.verdict (limit later.key) (window later.key) _ later.now) = _
    rw [hkey, hlog, hpass]
    rfl

/-- A limiter nobody has used; the counter of the process may stand anywhere. -/
def Limiter.fresh (rl_counter : ℕ) : Limiter K := ⟨fun _ => [], fun _ => none, rl_counter⟩

/-- The two backends give every hit the same answer, and enforce the window. -/
theorem backends_agree (hlimit : ∀ k, 1 ≤ limit k) (ho : InOrder hits) (ht : ClockTicks hits) (required : Bool)
    (rl_counter : ℕ) :
    transcript (hitInmemory limit window) (.fresh rl_counter) hits =
        transcript (hitRedis limit window required .up) (.fresh rl_counter) hits ∧
      Enforces limit window (transcript (hitInmemory limit window) (.fresh rl_counter) hits) := by
  have hmem : transcript (hitInmemory limit window) (.fresh rl_counter) hits = _ := inmemory_log (fun _ => rfl) hlimit ho
  refine ⟨hmem.trans (redis_log (fun _ => rfl) hlimit ho ht).symm, ?_⟩
  rw [hmem]
  exact hitLog_enforces hlimit ho

/-- Four hits of a user, with two allowed a minute. -/
def sampleHits : List (Hit ℕ) := [⟨7, 0, 1⟩, ⟨7, 1000000, 2⟩, ⟨7, 2000000, 3⟩, ⟨7, 60000000, 4⟩]

theorem sampleHits_ticks : ClockTicks sampleHits := by
  intro i j a b ha hb hlt hmod
  have hj : j < 4 := (List.getElem?_eq_some_iff.1 hb).1
  omega

theorem sampleHits_agree :
    transcript (hitInmemory (fun _ => 2) (fun _ => 60000000)) (.fresh 0) sampleHits =
        transcript (hitRedis (fun _ => 2) (fun _ => 60000000) true .up) (.fresh 0) sampleHits ∧
      Enforces (fun _ => 2) (fun _ => 60000000)
        (transcript (hitInmemory (fun _ => 2) (fun _ => 60000000)) (.fresh 0) sampleHits) :=
  backends_agree (fun _ => by decide) (by unfold InOrder; decide) sampleHits_ticks true 0

example : (transcript (hitRedis (fun _ => 2) (fun _ => 60000000) true .up) (.fresh 0) sampleHits).map Prod.snd =
    [.admitted, .admitted, .tooMany 58000000, .admitted] := by decide +kernel

end Garant
