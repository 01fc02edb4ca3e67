import Garant.Accounts
/-!
# Account transfers

`services_account.py`: `confirm_transfer`, `cancel_active` and `issue_code`,
statement by statement. A confirm finds its code in an unlocked row, waits for
the locks on the two users, and never looks at the code row again; so two
targets that found the same code both take it (`code_taken_twice`).
`code_consumed_once`: a code is taken at most once, and never after it was
consumed, in every run in which a code is only consumed while no other confirm
has found it.
-/
open Transactions

namespace Garant

/-! ## The codes -/

/-- The rows `_purge_expired` deletes. -/
def AccountStore.deadCodes (s : AccountStore) : List ℕ :=
  s.transfer_codes.ids fun c => c.expires_at < s.now ∨ c.consumed_at.isSome

/-- The later of two rows in `ORDER BY created_at DESC`. -/
def AccountStore.newer (s : AccountStore) (i : ℕ) : Option ℕ → ℕ
  | none => i
  | some j =>
    let created k := (s.transfer_codes.row k).map (·.created_at)
    if (created i).getD 0 < (created j).getD 0 then j else i

/-- The live row with this hash, the newest one if there are several. -/
def AccountStore.liveCode (s : AccountStore) (code_hash : String) : Option (ℕ × AccountTransferCode) :=
  let live := s.transfer_codes.ids fun c => c.code_hash = code_hash ∧ c.consumed_at = none ∧ s.now < c.expires_at
  (live.foldr (fun i best => some (s.newer i best)) none).bind fun i => (s.transfer_codes.row i).map fun c => (i, c)

/-- The rows `_invalidate_active_for` and `cancel_active` update. -/
def AccountStore.unconsumed (s : AccountStore) (user_id : ℕ) : List ℕ :=
  s.transfer_codes.ids fun c => c.source_user_id = user_id ∧ c.consumed_at = none

/-- Of the rows that an `UPDATE .. WHERE consumed_at IS NULL` has locked, those it changes. -/
def AccountStore.stamped (s : AccountStore) (locked : List ℕ) : List ℕ :=
  locked.filter fun i => (s.transfer_codes.row i).any (·.consumed_at = none)

/-- Marks the rows consumed. -/
def AccountStore.stamp (s : AccountStore) (locked : List ℕ) : AccountStore :=
  { s with
    transfer_codes := s.transfer_codes.mapRows fun i c =>
      if i ∈ locked ∧ c.consumed_at = none then { c with consumed_at := some s.now } else c
    history := s.history ++ (s.stamped locked).map .withdrawn }

/-- `_has_tradable_data`, on the target as it was loaded. -/
def AccountStore.hasTradableData (s : AccountStore) (user_id : ℕ) (user : UserAccount) : Bool :=
  user.pin_hash.any (· ≠ "") || 0 < user.trust_deposit_balance.val || s.tradable user_id

/-! ## confirm_transfer -/

/-- What `confirm_transfer` has loaded once it has found the code: the code row
and, with it, the source (the relationship loads eagerly), the calling target,
and the dead codes its purge has deleted. -/
structure FoundCode where
  code_id : ℕ
  code : AccountTransferCode
  source : Option UserAccount
  target_id : ℕ
  target : UserAccount
  purged : List ℕ
deriving DecidableEq

/-- The source after the transfer, as the session sees it. -/
def FoundCode.swapped (f : FoundCode) (source : UserAccount) : UserAccount :=
  { source with
    tg_user_id := f.target.tg_user_id
    username := if f.target.username.any (· ≠ "") then f.target.username else source.username
    photo_url := if f.target.photo_url.any (· ≠ "") then f.target.photo_url else source.photo_url
    display_name :=
      if f.target.display_name ≠ "" ∧ source.display_name = "" then f.target.display_name else source.display_name
    pin_session_epoch := source.pin_session_epoch + 1
    totp_session_epoch := source.totp_session_epoch + 1 }

/-- Another row has the same `tg_user_id` or `username`. -/
def taken (users : Table UserAccount) (user_id : ℕ) (a : UserAccount) : Bool :=
  (users.ids fun b => b.tg_user_id = a.tg_user_id ∨ (b.username.isSome ∧ b.username = a.username)).any (· ≠ user_id)

/-- Whether the last commit of `confirm_transfer` goes through. It rolls back if
the code row or the source is gone, or a unique column is taken. -/
def FoundCode.lands (f : FoundCode) (source : UserAccount) (s : AccountStore) : Bool :=
  (s.transfer_codes.row f.code_id).isSome && (s.users.row f.code.source_user_id).any fun cur =>
    !taken ((s.users.erase f.target_id).set f.code.source_user_id (flush source (f.swapped source) cur))
      f.code.source_user_id (flush source (f.swapped source) cur)

/-- The last commit of `confirm_transfer`. -/
def FoundCode.commit (f : FoundCode) (source : UserAccount) (s : AccountStore) : AccountStore :=
  if f.lands source s then
    { { s with users := s.users.erase f.target_id }.flushUser f.code.source_user_id source (f.swapped source) with
      transfer_codes := (s.transfer_codes.eraseAll f.purged).mapRows fun i code =>
        if i = f.code_id then
          { code with consumed_at := some s.now, target_tg_user_id := some f.target.tg_user_id }
        else code
      history := s.history ++ [.used f.code_id f.target_id, .revoked .pin f.code.source_user_id,
        .revoked .totp f.code.source_user_id] }
  else s

/-- The commit of `confirm_transfer` when the source account is gone. -/
def FoundCode.commitOrphan (f : FoundCode) (s : AccountStore) : AccountStore :=
  if (s.transfer_codes.row f.code_id).isSome then
    { s with
      transfer_codes := (s.transfer_codes.eraseAll f.purged).mapRows fun i code =>
        if i = f.code_id then { code with consumed_at := some s.now } else code
      history := s.history ++ [.withdrawn f.code_id] }
  else s

/-- The purge and the stamps of `issue_code`. -/
def AccountStore.purgeAndStamp (s : AccountStore) (purged locked : List ℕ) : AccountStore :=
  { s with transfer_codes := s.transfer_codes.eraseAll purged }.stamp locked

/-- Whether the hash of a new code is free. -/
def AccountStore.hashFree (s : AccountStore) (code_hash : String) : Bool :=
  s.transfer_codes.ids (·.code_hash = code_hash) = []

/-- The commit of `issue_code`; it rolls back if the hash is taken. -/
def commitIssue (source_id : ℕ) (code_hash : String) (purged locked : List ℕ) (s : AccountStore) : AccountStore :=
  let s' := s.purgeAndStamp purged locked
  if s'.hashFree code_hash then
    { s' with
      transfer_codes := s'.transfer_codes.insert
        ⟨source_id, code_hash, s.now + seconds s.settings.account_transfer_code_ttl_seconds, none, none, s.now⟩ }
  else s

/-- Where a request is. -/
inductive TransferPc
  /-- `confirm_transfer`; `purge` is whether this one purges. A malformed code
  is refused before anything is read. -/
  | confirm (target_id : ℕ) (code : String) (purge : Bool)
  | purging (target_id : ℕ) (target : UserAccount) (code : String) (todo purged : List ℕ)
  | lockFirst (f : FoundCode) (code : String)
  | lockSecond (f : FoundCode) (code : String)
  | checks (f : FoundCode) (code : String)
  | orphan (f : FoundCode)
  | commitOrphan (f : FoundCode)
  | swap (f : FoundCode) (source : UserAccount)
  | commit (f : FoundCode) (source : UserAccount)
  /-- `cancel_active`. -/
  | cancel (source_id : ℕ)
  | cancelling (todo locked : List ℕ)
  /-- `issue_code` with the hash it has drawn. -/
  | issue (source_id : ℕ) (code_hash : String)
  | issuePurging (source_id : ℕ) (code_hash : String) (todo purged : List ℕ)
  | issueStamping (source_id : ℕ) (code_hash : String) (purged todo locked : List ℕ)
  | finished
deriving DecidableEq

section
variable (hashCode : String → String)

/-- The next statement. -/
def TransferPc.move : TransferPc → Move AccountStore AccountLock TransferPc
  | .confirm target_id code purge => .read fun s => match s.users.row target_id with
    | none => .finished
    | some target => .purging target_id target code (if purge then s.deadCodes else []) []
  | .purging target_id target code (i :: todo) purged =>
    .lock (.code i) (.purging target_id target code todo (i :: purged))
  | .purging target_id target code [] purged => .read fun s => match s.liveCode (hashCode code) with
    | none => .finished
    | some (i, c) => .lockFirst ⟨i, c, s.users.row c.source_user_id, target_id, target, purged⟩ code
  | .lockFirst f code => .lock (.user (min f.code.source_user_id f.target_id)) (.lockSecond f code)
  | .lockSecond f code => .lock (.user (max f.code.source_user_id f.target_id)) (.checks f code)
  | .checks f code => .read fun s => match s.users.row f.code.source_user_id with
    | none => .orphan f
    | some source =>
      if f.code.source_user_id = f.target_id ∨ hashCode code ≠ f.code.code_hash ∨ s.hasTradableData f.target_id f.target
      then .finished
      -- a row loaded before keeps the values it was loaded with
      else .swap f (f.source.getD source)
  | .orphan f => .lock (.code f.code_id) (.commitOrphan f)
  | .commitOrphan f => .commit f.commitOrphan fun _ => .finished
  | .swap f source => .lock (.code f.code_id) (.commit f source)
  | .commit f source => .commit (f.commit source) fun _ => .finished
  | .cancel source_id => .read fun s => .cancelling (s.unconsumed source_id) []
  | .cancelling (i :: todo) locked => .lock (.code i) (.cancelling todo (i :: locked))
  | .cancelling [] locked => .commit (fun s => s.stamp locked) fun _ => .finished
  | .issue source_id code_hash => .read fun s => .issuePurging source_id code_hash s.deadCodes []
  | .issuePurging source_id code_hash (i :: todo) purged =>
    .lock (.code i) (.issuePurging source_id code_hash todo (i :: purged))
  | .issuePurging source_id code_hash [] purged => .read fun s =>
    .issueStamping source_id code_hash purged ((s.unconsumed source_id).filter (· ∉ purged)) []
  | .issueStamping source_id code_hash purged (i :: todo) locked =>
    .lock (.code i) (.issueStamping source_id code_hash purged todo (i :: locked))
  | .issueStamping source_id code_hash purged [] locked =>
    .commit (commitIssue source_id code_hash purged locked) fun _ => .finished
  | .finished => .done

end

/-- The requests. -/
inductive TransferOp
  | confirm (target_id : ℕ) (code : String) (purge : Bool)
  | cancel (source_id : ℕ)
  | issue (source_id : ℕ) (code_hash : String)

def TransferOp.entry : TransferOp → TransferPc
  | .confirm target_id code purge => .confirm target_id code purge
  | .cancel source_id => .cancel source_id
  | .issue source_id code_hash => .issue source_id code_hash

/-! ## Consumption -/

/-- The code a deed is about. -/
def Deed.code : Deed → Option ℕ
  | .used c _ | .withdrawn c => some c
  | _ => none

/-- No code is taken after it was consumed; so none is taken twice. -/
def UsedOnce (history : List Deed) : Prop :=
  history.Pairwise fun d e => ∀ c t, e = .used c t → d.code ≠ some c

/-- The code a confirm has found and still acts on. -/
def TransferPc.found : TransferPc → Option ℕ
  | .lockFirst f _ | .lockSecond f _ | .checks f _ | .orphan f | .commitOrphan f | .swap f _ | .commit f _ =>
    some f.code_id
  | _ => none

/-- The codes that the next statement consumes: there are some if it is the
commit of a confirm, a cancel or a re-issue that goes through. -/
def TransferPc.consumes (s : AccountStore) : TransferPc → List ℕ
  | .commit f source => if f.lands source s then [f.code_id] else []
  | .commitOrphan f => if (s.transfer_codes.row f.code_id).isSome then [f.code_id] else []
  | .cancelling [] locked => s.stamped locked
  | .issueStamping _ code_hash purged [] locked =>
    if (s.purgeAndStamp purged locked).hashFree code_hash then
      { s with transfer_codes := s.transfer_codes.eraseAll purged }.stamped locked
    else []
  | _ => []

/-- Each code is gone or consumed. -/
def AccountStore.Spent (s : AccountStore) (c : ℕ) : Prop :=
  c < s.transfer_codes.next ∧ ∀ code, s.transfer_codes.row c = some code → code.consumed_at ≠ none

/-- A commit that does `deeds`: their codes are spent, and spent codes stay spent. -/
structure Consumes (s u : AccountStore) (deeds : List Deed) : Prop where
  history : u.history = s.history ++ deeds
  spent : ∀ d ∈ deeds, ∀ c, d.code = some c → u.Spent c
  keeps : ∀ c, s.Spent c → u.Spent c

section
variable {s u : AccountStore} {f : FoundCode} {source : UserAccount} {c : ℕ} {locked purged : List ℕ}

theorem AccountStore.Spent.mapRows {t : Table AccountTransferCode} {g : ℕ → AccountTransferCode → AccountTransferCode}
    {s u : AccountStore} (h : s.Spent c) (hu : u.transfer_codes = t.mapRows g) (ht : t.next = s.transfer_codes.next)
    (hsub : ∀ code, t.row c = some code → s.transfer_codes.row c = some code)
    (hg : ∀ code, code.consumed_at ≠ none → (g c code).consumed_at ≠ none) : u.Spent c := by
  refine ⟨by rw [hu]; exact ht ▸ h.1, fun code' hc' => ?_⟩
  rw [hu, Table.mapRows_row] at hc'
  obtain ⟨code, hc, rfl⟩ := Option.map_eq_some_iff.1 hc'
  exact hg code (h.2 code (hsub code hc))

theorem AccountStore.spent_of_mapRows {t : Table AccountTransferCode}
    {g : ℕ → AccountTransferCode → AccountTransferCode} (hu : u.transfer_codes = t.mapRows g) (hlt : c < t.next)
    (hg : ∀ code, (g c code).consumed_at ≠ none) : u.Spent c := by
  refine ⟨hu ▸ hlt, fun code' hc' => ?_⟩
  rw [hu, Table.mapRows_row] at hc'
  obtain ⟨code, -, rfl⟩ := Option.map_eq_some_iff.1 hc'
  exact hg code

theorem eraseAll_sub {t : Table AccountTransferCode} {code : AccountTransferCode}
    (h : (t.eraseAll purged).row c = some code) : t.row c = some code := by
  rw [Table.eraseAll_row] at h
  split at h
  · cases h
  · exact h

theorem FoundCode.commit_consumes (h : f.lands source s = true) :
    Consumes s (f.commit source s)
      [.used f.code_id f.target_id, .revoked .pin f.code.source_user_id, .revoked .totp f.code.source_user_id] := by
  rw [FoundCode.commit, if_pos h]
  obtain ⟨hcode, -⟩ := Bool.and_eq_true_iff.1 h
  obtain ⟨code₀, hcode₀⟩ := Option.isSome_iff_exists.1 hcode
  refine ⟨rfl, ?_, fun c hc => ?_⟩
  · intro d hd c hc
    have hcid : c = f.code_id := by
      simp only [List.mem_cons, List.not_mem_nil, or_false] at hd
      rcases hd with rfl | rfl | rfl <;> cases hc
      rfl
    subst hcid
    exact AccountStore.spent_of_mapRows rfl (by simpa using Table.lt_next hcode₀) (by simp)
  · refine hc.mapRows rfl (Table.eraseAll_next _) (fun code h => eraseAll_sub h) fun code hne => ?_
    split
    · simp
    · exact hne

theorem FoundCode.commitOrphan_consumes (h : (s.transfer_codes.row f.code_id).isSome = true) :
    Consumes s (f.commitOrphan s) [.withdrawn f.code_id] := by
  rw [FoundCode.commitOrphan, if_pos h]
  obtain ⟨code₀, hcode₀⟩ := Option.isSome_iff_exists.1 h
  refine ⟨rfl, ?_, fun c hc => ?_⟩
  · intro d hd c hc
    rw [List.mem_singleton.1 hd] at hc
    cases hc
    exact AccountStore.spent_of_mapRows rfl (by simpa using Table.lt_next hcode₀) (by simp)
  · refine hc.mapRows rfl (Table.eraseAll_next _) (fun code h => eraseAll_sub h) fun code hne => ?_
    split
    · simp
    · exact hne

theorem AccountStore.stamp_consumes : Consumes s (s.stamp locked) ((s.stamped locked).map .withdrawn) := by
  have hkeep : ∀ i ∈ locked, ∀ code : AccountTransferCode,
      (if i ∈ locked ∧ code.consumed_at = none then { code with consumed_at := some s.now } else code).consumed_at ≠
        none := by
    intro i hi code
    split
    · simp
    · next h => exact fun hn => h ⟨hi, hn⟩
  refine ⟨rfl, ?_, fun c hc => ?_⟩
  · intro d hd c hc
    obtain ⟨i, hi, rfl⟩ := List.mem_map.1 hd
    cases hc
    obtain ⟨hl, hany⟩ := List.mem_filter.1 hi
    obtain ⟨code₀, hcode₀, -⟩ := (Option.any_eq_true _ _).1 hany
    exact AccountStore.spent_of_mapRows rfl (Table.lt_next hcode₀) (hkeep _ hl)
  · refine hc.mapRows rfl rfl (fun code h => h) fun code hne => ?_
    split
    · simp
    · exact hne

theorem commitIssue_consumes {source_id : ℕ} {code_hash : String}
    (h : (s.purgeAndStamp purged locked).hashFree code_hash = true) :
    Consumes s (commitIssue source_id code_hash purged locked s)
      (({ s with transfer_codes := s.transfer_codes.eraseAll purged }.stamped locked).map .withdrawn) := by
  have hst : Consumes { s with transfer_codes := s.transfer_codes.eraseAll purged } (s.purgeAndStamp purged locked)
      (({ s with transfer_codes := s.transfer_codes.eraseAll purged }.stamped locked).map .withdrawn) :=
    AccountStore.stamp_consumes
  have hinsert : ∀ c, (s.purgeAndStamp purged locked).Spent c →
      (commitIssue source_id code_hash purged locked s).Spent c := by
    rintro c ⟨hlt, hrow⟩
    simp only [commitIssue, if_pos h]
    refine ⟨Nat.lt_succ_of_lt hlt, fun code hc => hrow code ?_⟩
    rwa [Table.insert_row, if_neg hlt.ne] at hc
  refine ⟨?_, fun d hd c hc => hinsert c (hst.spent d hd c hc), fun c hc => hinsert c (hst.keeps c ?_)⟩
  · simp only [commitIssue, if_pos h]
    exact hst.history
  · exact ⟨by simpa using hc.1, fun code h => hc.2 code (eraseAll_sub h)⟩

/-- A found code is live. -/
theorem AccountStore.liveCode_live {code_hash : String} {code : AccountTransferCode}
    (h : s.liveCode code_hash = some (c, code)) : s.transfer_codes.row c = some code ∧ code.consumed_at = none := by
  obtain ⟨i, hi, hrow⟩ := Option.bind_eq_some_iff.1 h
  obtain ⟨code', hcode, heq⟩ := Option.map_eq_some_iff.1 hrow
  cases heq
  have hmem : ∀ (l : List ℕ) (j : ℕ), l.foldr (fun i best => some (s.newer i best)) none = some j → j ∈ l := by
    intro l
    induction l with
    | nil => nofun
    | cons k l ih =>
      intro j hj
      rw [List.foldr_cons, Option.some_inj] at hj
      cases hbest : l.foldr (fun i best => some (s.newer i best)) none with
      | none =>
        rw [hbest, AccountStore.newer] at hj
        exact hj ▸ List.mem_cons_self
      | some b =>
        rw [hbest, AccountStore.newer] at hj
        split at hj
        · exact List.mem_cons_of_mem _ (hj ▸ ih b hbest)
        · exact hj ▸ List.mem_cons_self
  obtain ⟨code', hr, hp⟩ := Table.mem_ids.1 (hmem _ _ hi)
  rw [hcode] at hr
  cases hr
  exact ⟨hcode, (of_decide_eq_true hp).2.1⟩

end

/-! ## One move -/

/-- A commit of a request that is at `pc`. -/
structure Takes (pc : TransferPc) (s u : AccountStore) (deeds : List Deed) : Prop extends Consumes s u deeds where
  once : UsedOnce deeds
  codes : ∀ d ∈ deeds, ∀ c, d.code = some c → c ∈ pc.consumes s
  used : ∀ c t, .used c t ∈ deeds → pc.found = some c

theorem takes_withdrawn {pc : TransferPc} {s u : AccountStore} {cs : List ℕ} (h : Consumes s u (cs.map .withdrawn))
    (hcs : pc.consumes s = cs) : Takes pc s u (cs.map .withdrawn) where
  toConsumes := h
  once := List.pairwise_map.2 (List.pairwise_of_forall fun _ _ => nofun)
  codes := by
    intro d hd c hc
    obtain ⟨i, hi, rfl⟩ := List.mem_map.1 hd
    cases hc
    exact hcs ▸ hi
  used := by
    intro c t hd
    obtain ⟨i, -, hi⟩ := List.mem_map.1 hd
    cases hi

theorem takes_used {f : FoundCode} {source : UserAccount} {s : AccountStore} (h : f.lands source s = true) :
    Takes (.commit f source) s (f.commit source s)
      [.used f.code_id f.target_id, .revoked .pin f.code.source_user_id, .revoked .totp f.code.source_user_id] where
  toConsumes := FoundCode.commit_consumes h
  once := by
    simp [UsedOnce]
  codes := by
    intro d hd c hc
    rw [TransferPc.consumes, if_pos h, List.mem_singleton]
    simp only [List.mem_cons, List.not_mem_nil, or_false] at hd
    rcases hd with rfl | rfl | rfl <;> cases hc
    rfl
  used := by
    intro c t hd
    simp only [List.mem_cons, List.not_mem_nil, or_false, reduceCtorEq, Deed.used.injEq] at hd
    rw [hd.1, TransferPc.found]

/-- What a move may do: nothing to the store, and a confirm goes on with its
code or finds a live one; or a commit that consumes codes and ends the request. -/
theorem TransferPc.moves {hashCode : String → String} {s : Transactions.Sys AccountStore AccountLock TransferPc} {i : ℕ}
    {x y : Transactions.Session AccountLock TransferPc} {u : AccountStore}
    (h : Moves (TransferPc.move hashCode) s i x y u) :
    (u = s.store ∧ ∀ c, y.pc.found = some c → x.pc.found = some c ∨
      ∃ code, s.store.transfer_codes.row c = some code ∧ code.consumed_at = none) ∨
    (y.pc.found = none ∧ ∃ deeds, Takes x.pc s.store u deeds) := by
  obtain ⟨pc, held⟩ := x
  cases pc with
  | confirm t code p =>
    obtain ⟨rfl, rfl⟩ := h.of_read rfl
    refine .inl ⟨rfl, fun c hc => ?_⟩
    simp only at hc
    split at hc <;> cases hc
  | purging t target code todo purged =>
    cases todo with
    | cons k todo =>
      obtain ⟨rfl, rfl⟩ := h.of_lock rfl
      exact .inl ⟨rfl, nofun⟩
    | nil =>
      obtain ⟨rfl, rfl⟩ := h.of_read rfl
      refine .inl ⟨rfl, fun c hc => .inr ?_⟩
      simp only at hc
      split at hc
      · cases hc
      · next k code' hlive =>
        cases hc
        exact ⟨code', AccountStore.liveCode_live hlive⟩
  | lockFirst f code | lockSecond f code | orphan f | swap f source =>
    obtain ⟨rfl, rfl⟩ := h.of_lock rfl
    exact .inl ⟨rfl, fun c hc => .inl hc⟩
  | checks f code =>
    obtain ⟨rfl, rfl⟩ := h.of_read rfl
    refine .inl ⟨rfl, fun c hc => .inl ?_⟩
    simp only at hc
    split at hc
    · exact hc
    · split at hc
      · cases hc
      · exact hc
  | commitOrphan f =>
    obtain ⟨rfl, rfl⟩ := h.of_commit rfl
    by_cases hrow : (s.store.transfer_codes.row f.code_id).isSome = true
    · exact .inr ⟨rfl, [f.code_id].map .withdrawn, takes_withdrawn (FoundCode.commitOrphan_consumes hrow) (if_pos hrow)⟩
    · exact .inl ⟨if_neg hrow, nofun⟩
  | commit f source =>
    obtain ⟨rfl, rfl⟩ := h.of_commit rfl
    by_cases hland : f.lands source s.store = true
    · exact .inr ⟨rfl, _, takes_used hland⟩
    · exact .inl ⟨if_neg hland, nofun⟩
  | cancel v | issue v hash =>
    obtain ⟨rfl, rfl⟩ := h.of_read rfl
    exact .inl ⟨rfl, nofun⟩
  | cancelling todo locked =>
    cases todo with
    | cons k todo =>
      obtain ⟨rfl, rfl⟩ := h.of_lock rfl
      exact .inl ⟨rfl, nofun⟩
    | nil =>
      obtain ⟨rfl, rfl⟩ := h.of_commit rfl
      exact .inr ⟨rfl, _, takes_withdrawn AccountStore.stamp_consumes rfl⟩
  | issuePurging v hash todo purged =>
    cases todo with
    | cons k todo =>
      obtain ⟨rfl, rfl⟩ := h.of_lock rfl
      exact .inl ⟨rfl, nofun⟩
    | nil =>
      obtain ⟨rfl, rfl⟩ := h.of_read rfl
      exact .inl ⟨rfl, nofun⟩
  | issueStamping v hash purged todo locked =>
    cases todo with
    | cons k todo =>
      obtain ⟨rfl, rfl⟩ := h.of_lock rfl
      exact .inl ⟨rfl, nofun⟩
    | nil =>
      obtain ⟨rfl, rfl⟩ := h.of_commit rfl
      by_cases hfree : (s.store.purgeAndStamp purged locked).hashFree hash = true
      · exact .inr ⟨rfl, _, takes_withdrawn (commitIssue_consumes hfree) (if_pos hfree)⟩
      · exact .inl ⟨if_neg hfree, nofun⟩
  | finished => exact (h.of_done rfl).elim

/-! ## Runs -/

/-- The transfer requests and, between their statements, whatever else leaves
the codes as they are. -/
abbrev TransferSys := Transactions.Sys AccountStore AccountLock TransferPc

/-- Other requests change users and time as they like, but no code. -/
def LeavesCodes (s u : AccountStore) : Prop := u.transfer_codes = s.transfer_codes ∧ u.history = s.history

def TransferStep (hashCode : String → String) : Event TransferOp → TransferSys → TransferSys → Prop :=
  Transactions.Step (TransferPc.move hashCode) TransferOp.entry LeavesCodes

/-- A request consumes a code only while no other confirm has found it. -/
def Unrivalled : Event TransferOp → TransferSys → Prop
  | .move i, s => ∀ x, s.sessions.row i = some x → ∀ c ∈ x.pc.consumes s.store,
      ∀ j y, j ≠ i → s.sessions.row j = some y → y.pc.found ≠ some c
  | _, _ => True

/-- What holds of the store in such runs; `start` is the store they began with. -/
structure CodesOk (start s : AccountStore) : Prop where
  once : UsedOnce s.history
  spent : ∀ d ∈ s.history, ∀ c, d.code = some c → s.Spent c
  kept : ∀ c, start.Spent c → s.Spent c
  unspent : ∀ c t, .used c t ∈ s.history → ¬ start.Spent c

/-- A confirm that found the code may still take it: no deed is about it, and
it was not spent at the start. -/
def Untouched (start s : AccountStore) (c : ℕ) : Prop := (∀ d ∈ s.history, d.code ≠ some c) ∧ ¬ start.Spent c

theorem CodesOk.takes {start s u : AccountStore} {pc : TransferPc} {deeds : List Deed} (hs : CodesOk start s)
    (hpc : ∀ c, pc.found = some c → Untouched start s c) (h : Takes pc s u deeds) : CodesOk start u where
  once := by
    rw [h.history]
    refine List.pairwise_append.2 ⟨hs.once, h.once, ?_⟩
    rintro d hd e he c t rfl
    exact (hpc c (h.used c t he)).1 d hd
  spent := by
    rw [h.history]
    intro d hd c hc
    rcases List.mem_append.1 hd with hd | hd
    · exact h.keeps c (hs.spent d hd c hc)
    · exact h.spent d hd c hc
  kept := fun c hc => h.keeps c (hs.kept c hc)
  unspent := by
    rw [h.history]
    intro c t hd
    rcases List.mem_append.1 hd with hd | hd
    · exact hs.unspent c t hd
    · exact (hpc c (h.used c t hd)).2

/-- A live row is untouched. -/
theorem CodesOk.untouched {start s : AccountStore} {c : ℕ} {code : AccountTransferCode} (hs : CodesOk start s)
    (hrow : s.transfer_codes.row c = some code) (hlive : code.consumed_at = none) : Untouched start s c :=
  ⟨fun d hd hc => (hs.spent d hd c hc).2 code hrow hlive, fun hc => (hs.kept c hc).2 code hrow hlive⟩

/-- A code is taken by at most one confirm, and by none after it was consumed
by a confirm, a cancel or a re-issue, or was deleted. -/
theorem code_consumed_once {hashCode : String → String} {start : AccountStore} {t : TransferSys} (h0 : start.history = [])
    (h : Reach (TransferStep hashCode) Unrivalled (.idle start) t) :
    UsedOnce t.store.history ∧ ∀ c target, .used c target ∈ t.store.history → ¬ start.Spent c := by
  have hstart : CodesOk start start := ⟨h0 ▸ .nil, h0 ▸ nofun, fun _ hc => hc, h0 ▸ nofun⟩
  have hI := (outline (I := CodesOk start) (L := fun s _ x => ∀ c, x.pc.found = some c → Untouched start s c)
    h hstart ?_ ?_ ?_).1
  · exact ⟨hI.once, hI.unspent⟩
  · intro op s i _ c hc
    cases op <;> cases hc
  · intro s i x y u hI hL hok hx hm
    rcases TransferPc.moves hm with ⟨rfl, hfound⟩ | ⟨hnone, deeds, ht⟩
    · refine ⟨hI, fun c hc => ?_, fun j z _ hj => hL j z hj⟩
      rcases hfound c hc with hold | ⟨code, hrow, hlive⟩
      · exact hL i x hx c hold
      · exact hI.untouched hrow hlive
    · refine ⟨hI.takes (hL i x hx) ht, fun c hc => ?_, fun j z hne hj c hc => ⟨fun d hd hcode => ?_, ?_⟩⟩
      · rw [hnone] at hc
        cases hc
      · rw [ht.history] at hd
        rcases List.mem_append.1 hd with hd | hd
        · exact (hL j z hj c hc).1 d hd hcode
        -- the condition: nobody else has found what this commit consumes
        · exact hok x hx c (ht.codes d hd c hcode) j z hne hj hc
      · exact (hL j z hj c hc).2
  · rintro s u hI - ⟨hcodes, hhist⟩
    have hspent : ∀ c, s.store.Spent c → u.Spent c := fun c hc => ⟨hcodes ▸ hc.1, hcodes ▸ hc.2⟩
    refine ⟨⟨hhist ▸ hI.once, fun d hd c hc => hspent c (hI.spent d (hhist ▸ hd) c hc), fun c hc => hspent c (hI.kept c hc),
      hhist ▸ hI.unspent⟩, fun j z _ hz c hc => ⟨fun d hd => (hz c hc).1 d (hhist ▸ hd), (hz c hc).2⟩⟩

/-! ## Two targets -/

def sampleFound (target_id : ℕ) (tg_user_id : ℤ) : FoundCode where
  code_id := 1
  code := ⟨1, "123456", seconds 300, none, none, 0⟩
  source := some (sampleAccount 101)
  target_id := target_id
  target := sampleAccount tg_user_id
  purged := []

theorem sampleFound_ok : sampleAccounts.liveCode "123456" = some (1, (sampleFound 2 102).code) := by decide +kernel

/-- Two targets enter the code; the second looks for it when the first has taken it, and finds nothing. -/
theorem sampleTransfer_once : ∃ t, Reach (TransferStep id) Unrivalled (.idle sampleAccounts) t ∧
    (t.sessions.row 2).map (·.pc) = some .finished ∧
    t.store.history = [.used 1 2, .revoked .pin 1, .revoked .totp 1] ∧ UsedOnce t.store.history ∧
    ∀ c target, .used c target ∈ t.store.history → ¬ sampleAccounts.Spent c := by
  have h₀ : Reach (TransferStep id) Unrivalled (.idle sampleAccounts) (.idle sampleAccounts) := .refl
  have h₁ := run_start h₀ (.confirm 2 "123456" false) trivial
  have h₂ := run_start h₁ (.confirm 3 "123456" false) trivial
  have h₃ := run_read (p := .purging 2 (sampleAccount 102) "123456" [] []) h₂ 1 rfl rfl rfl
    (by rintro x hx c hc; cases hx; cases hc)
  have h₄ := run_read (p := .purging 3 (sampleAccount 103) "123456" [] []) h₃ 2 rfl rfl rfl
    (by rintro x hx c hc; cases hx; cases hc)
  have h₅ := run_read (p := .lockFirst (sampleFound 2 102) "123456") h₄ 1 rfl rfl
    (by simp only [id, Sys.idle, sampleFound_ok]; rfl) (by rintro x hx c hc; cases hx; cases hc)
  have h₆ := run_lock h₅ 1 rfl rfl (Sys.freeFor_of_check (by decide)) (by rintro x hx c hc; cases hx; cases hc)
  have h₇ := run_lock h₆ 1 rfl rfl (Sys.freeFor_of_check (by decide)) (by rintro x hx c hc; cases hx; cases hc)
  have h₈ := run_read (p := .swap (sampleFound 2 102) (sampleAccount 101)) h₇ 1 rfl rfl (by decide +kernel)
    (by rintro x hx c hc; cases hx; cases hc)
  have h₉ := run_lock h₈ 1 rfl rfl (Sys.freeFor_of_check (by decide)) (by rintro x hx c hc; cases hx; cases hc)
  have h₁₀ := run_commit h₉ 1 rfl rfl rfl (by
    rintro x - c - j y hj hy
    by_cases hsecond : j = 2
    · subst hsecond
      cases hy
      rintro ⟨⟩
    · simp only [Table.set_row_ne hj, Table.set_row_ne hsecond, Sys.idle, Table.insert_row, Table.empty_row] at hy
      split at hy
      · next h => exact absurd h hsecond
      · split at hy
        · next h => exact absurd h hj
        · cases hy)
  have h₁₁ := run_read (p := .finished) h₁₀ 2 rfl rfl (by decide +kernel) (by rintro x hx c hc; cases hx; cases hc)
  exact ⟨_, h₁₁, rfl, by decide +kernel, code_consumed_once rfl h₁₁⟩

/-- Two new accounts enter the code at the same time. Both find it; the second
waits for the first one's lock on the source, and then takes the code again. -/
theorem code_taken_twice : ¬ ∀ (hashCode : String → String) (start : AccountStore) (t : TransferSys), start.history = [] →
    Reach (TransferStep hashCode) Free (.idle start) t → UsedOnce t.store.history := by
  intro hall
  have h₀ : Reach (TransferStep id) Free (.idle sampleAccounts) (.idle sampleAccounts) := .refl
  -- both find the code
  have h₁ := run_start h₀ (.confirm 2 "123456" false) trivial
  have h₂ := run_start h₁ (.confirm 3 "123456" false) trivial
  have h₃ := run_read (p := .purging 2 (sampleAccount 102) "123456" [] []) h₂ 1 rfl rfl rfl trivial
  have h₄ := run_read (p := .lockFirst (sampleFound 2 102) "123456") h₃ 1 rfl rfl
    (by simp only [id, Sys.idle, sampleFound_ok]; rfl) trivial
  have h₅ := run_read (p := .purging 3 (sampleAccount 103) "123456" [] []) h₄ 2 rfl rfl rfl trivial
  have h₆ := run_read (p := .lockFirst (sampleFound 3 103) "123456") h₅ 2 rfl rfl
    (by simp only [id, Sys.idle, sampleFound_ok]; rfl) trivial
  -- the first one takes it
  have h₇ := run_lock h₆ 1 rfl rfl (Sys.freeFor_of_check (by decide)) trivial
  have h₈ := run_lock h₇ 1 rfl rfl (Sys.freeFor_of_check (by decide)) trivial
  have h₉ := run_read (p := .swap (sampleFound 2 102) (sampleAccount 101)) h₈ 1 rfl rfl (by decide +kernel) trivial
  have h₁₀ := run_lock h₉ 1 rfl rfl (Sys.freeFor_of_check (by decide)) trivial
  have h₁₁ := run_commit h₁₀ 1 rfl rfl rfl trivial
  -- and then the second
  have h₁₂ := run_lock h₁₁ 2 rfl rfl (Sys.freeFor_of_check (by decide)) trivial
  have h₁₃ := run_lock h₁₂ 2 rfl rfl (Sys.freeFor_of_check (by decide)) trivial
  have h₁₄ := run_read (p := .swap (sampleFound 3 103) (sampleAccount 101)) h₁₃ 2 rfl rfl (by decide +kernel) trivial
  have h₁₅ := run_lock h₁₄ 2 rfl rfl (Sys.freeFor_of_check (by decide)) trivial
  have h₁₆ := run_commit h₁₅ 2 rfl rfl rfl trivial
  have hnot : ¬ UsedOnce [.used 1 2, .revoked .pin 1, .revoked .totp 1, .used 1 3, .revoked .pin 1, .revoked .totp 1] := by
    intro h
    exact (List.pairwise_cons.1 h).1 (.used 1 3) (by simp) 1 3 rfl rfl
  refine hnot ?_
  convert hall id sampleAccounts _ rfl h₁₆ using 1
  decide +kernel

end Garant
