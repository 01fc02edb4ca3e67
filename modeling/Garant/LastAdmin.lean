import Garant.Transfers
/-!
# The last administrator

`set_role` and `_ensure_not_last_admin` of `routers/admin/users.py`, together with
the account transfers, which delete the row of their target. A demotion locks all
the rows that are admins and looks at each again under its lock.

`admin_remains`: some user is an admin after every commit, in every run in which
no transfer takes away the only one. `transfer_takes_last_admin`: `confirm_transfer`
does not look at the roles of the row it deletes.
-/
open Transactions

namespace Garant

/-- The role columns of `users`. -/
structure Roles where
  is_admin : Bool
  is_arbiter : Bool
  is_vip : Bool
deriving DecidableEq

/-- The users with their roles. -/
structure RoleStore where
  accounts : AccountStore
  roles : ℕ → Roles

/-- `WHERE is_admin`, for one row. -/
def RoleStore.isAdmin (s : RoleStore) (u : ℕ) : Bool := (s.accounts.users.row u).isSome && (s.roles u).is_admin

/-- The rows that are admins, as one statement sees them. -/
def RoleStore.admins (s : RoleStore) : List ℕ := (List.range s.accounts.users.next).filter s.isAdmin

/-- The roles loaded and as they are to be, and the admins that the guard has locked. -/
structure RoleWrite where
  target_id : ℕ
  seen : Roles
  new : Roles
  locked : List ℕ
deriving DecidableEq

/-- Takes the flag away that needs `_ensure_not_last_admin`. -/
def RoleWrite.demotes (w : RoleWrite) : Bool := w.seen.is_admin && !w.new.is_admin

def flushRoles (seen new cur : Roles) : Roles where
  is_admin := column seen.is_admin new.is_admin cur.is_admin
  is_arbiter := column seen.is_arbiter new.is_arbiter cur.is_arbiter
  is_vip := column seen.is_vip new.is_vip cur.is_vip

/-- The commit; if the user is gone the transaction rolls back. -/
def RoleWrite.commit (w : RoleWrite) (s : RoleStore) : RoleStore :=
  if (s.accounts.users.row w.target_id).isSome then
    { s with roles := Function.update s.roles w.target_id (flushRoles w.seen w.new (s.roles w.target_id)) }
  else s

/-! ## The requests -/

inductive RoleOp
  | transfer (op : TransferOp)
  | setRole (caller_id target_id : ℕ) (roles : Roles)

/-- Where a request is. -/
inductive RolePc
  | transfer (pc : TransferPc)
  /-- `set_role`: the caller, and then the target. -/
  | authorize (caller_id target_id : ℕ) (roles : Roles)
  | load (caller_id target_id : ℕ) (roles : Roles)
  /-- `_ensure_not_last_admin`: the statement sees the admins, locks one after the other and looks at each again. -/
  | scan (w : RoleWrite)
  | lockAdmins (w : RoleWrite) (todo : List ℕ)
  | recheck (w : RoleWrite) (id : ℕ) (todo : List ℕ)
  | update (w : RoleWrite)
  | commit (w : RoleWrite)
  | finished
deriving DecidableEq

def RoleOp.entry : RoleOp → RolePc
  | .transfer op => .transfer op.entry
  | .setRole caller_id target_id roles => .authorize caller_id target_id roles

section
variable (hashCode : String → String)

/-- The next statement. -/
def RolePc.move : RolePc → Move RoleStore AccountLock RolePc
  | .transfer pc => (pc.move hashCode).on RoleStore.accounts (fun a s => { s with accounts := a }) id .transfer
  | .authorize caller target roles => .read fun s => if s.isAdmin caller then .load caller target roles else .finished
  | .load caller target roles => .read fun s =>
    let w : RoleWrite := ⟨target, s.roles target, roles, []⟩
    if (s.accounts.users.row target).isNone ∨ w.new = w.seen ∨ caller = target then .finished
    else if w.demotes then .scan w else .update w
  | .scan w => .read fun s => .lockAdmins w s.admins
  | .lockAdmins w (u :: todo) => .lock (.user u) (.recheck w u todo)
  | .recheck w u todo => .read fun s =>
    .lockAdmins (if s.isAdmin u then { w with locked := u :: w.locked } else w) todo
  | .lockAdmins w [] => .read fun _ => if w.locked.length ≤ 1 then .finished else .update w
  | .update w => .lock (.user w.target_id) (.commit w)
  | .commit w => .commit w.commit fun _ => .finished
  | .finished => .done

/-- Other requests change what they like, but delete no user and change no role. -/
structure KeepsRoles (s t : RoleStore) : Prop where
  roles : t.roles = s.roles
  rows : ∀ u, (s.accounts.users.row u).isSome → (t.accounts.users.row u).isSome

abbrev RoleSys := Transactions.Sys RoleStore AccountLock RolePc

def RoleStep : Event RoleOp → RoleSys → RoleSys → Prop :=
  Transactions.Step (RolePc.move hashCode) RoleOp.entry KeepsRoles

end

/-! ## What a statement does -/

/-- What a request has locked, and what the guard of a demotion has found. -/
def RolePc.Keeps (s : RoleStore) (held : List AccountLock) : RolePc → Prop
  | .transfer (.lockSecond f _) => .user (min f.code.source_user_id f.target_id) ∈ held
  | .transfer (.checks f _) | .transfer (.swap f _) | .transfer (.commit f _) => .user f.target_id ∈ held
  | .scan w => w.locked = []
  | .lockAdmins w todo => (w.locked ++ todo).Nodup ∧ ∀ u ∈ w.locked, .user u ∈ held ∧ s.isAdmin u
  | .recheck w u todo =>
    (w.locked ++ u :: todo).Nodup ∧ .user u ∈ held ∧ ∀ v ∈ w.locked, .user v ∈ held ∧ s.isAdmin v
  | .update w =>
    (w.demotes → w.locked.Nodup ∧ 2 ≤ w.locked.length) ∧ ∀ u ∈ w.locked, .user u ∈ held ∧ s.isAdmin u
  | .commit w =>
    (w.demotes → w.locked.Nodup ∧ 2 ≤ w.locked.length) ∧ (∀ u ∈ w.locked, .user u ∈ held ∧ s.isAdmin u) ∧
      .user w.target_id ∈ held
  | _ => True

section
variable {hashCode : String → String} {s t : RoleStore} {a : AccountStore} {u v i : ℕ} {w : RoleWrite} {f : FoundCode}
  {source : UserAccount} {held : List AccountLock}

@[simp] theorem RoleStore.isAdmin_iff : s.isAdmin u = true ↔
    (s.accounts.users.row u).isSome ∧ (s.roles u).is_admin = true := by
  simp [RoleStore.isAdmin]

theorem RoleStore.nodup_admins : s.admins.Nodup := List.nodup_range.filter _

theorem KeepsRoles.isAdmin (h : KeepsRoles s t) (hu : s.isAdmin u) : t.isAdmin u := by
  rw [RoleStore.isAdmin_iff] at hu ⊢
  exact ⟨h.rows u hu.1, h.roles ▸ hu.2⟩

theorem AccountStore.flushUser_isSome {seen new : UserAccount} :
    ((a.flushUser v seen new).users.row u).isSome = (a.users.row u).isSome := by
  unfold AccountStore.flushUser
  split
  · rfl
  · rename_i cur hcur
    dsimp only
    rw [Table.set_row hcur]
    split
    · rename_i hu
      rw [hu, hcur]
      rfl
    · rfl

/-- A transfer deletes its target, and nobody else. -/
theorem FoundCode.commit_isSome (hu : u ≠ f.target_id) :
    ((f.commit source a).users.row u).isSome = (a.users.row u).isSome := by
  unfold FoundCode.commit
  split
  · rw [show ∀ (b : AccountStore) codes history,
      ({ b with transfer_codes := codes, history := history } : AccountStore).users = b.users from fun _ _ _ => rfl,
      AccountStore.flushUser_isSome, Table.erase_row, if_neg hu]
  · rfl

theorem RoleWrite.commit_isAdmin (hu : u ≠ w.target_id) : (w.commit s).isAdmin u = s.isAdmin u := by
  unfold RoleWrite.commit
  split
  · simp only [RoleStore.isAdmin, Function.update_of_ne hu]
  · rfl

/-- Without a demotion the admins stay admins. -/
theorem RoleWrite.commit_grows (hw : w.demotes = false) (hu : s.isAdmin u) : (w.commit s).isAdmin u := by
  by_cases hut : u = w.target_id
  · subst hut
    unfold RoleWrite.commit
    split
    · rw [RoleStore.isAdmin_iff] at hu ⊢
      refine ⟨hu.1, ?_⟩
      simp only [Function.update_self, flushRoles, column, hu.2]
      split
      · rfl
      · rename_i hne
        revert hw hne
        unfold RoleWrite.demotes
        cases w.seen.is_admin <;> cases w.new.is_admin <;> simp
    · exact hu
  · rw [RoleWrite.commit_isAdmin hut]
    exact hu

/-- What a statement may do to the admins: nothing; delete the target of a
transfer; or write the roles of one user. -/
inductive RoleEffect (s t : RoleStore) : RolePc → Prop
  | none {pc : RolePc} (h : ∀ u, t.isAdmin u = s.isAdmin u) : RoleEffect s t pc
  | deletes {f : FoundCode} {source : UserAccount} (hlands : f.lands source s.accounts = true)
      (h : ∀ u, u ≠ f.target_id → t.isAdmin u = s.isAdmin u) : RoleEffect s t (.transfer (.commit f source))
  | sets {w : RoleWrite} (h : t = w.commit s) : RoleEffect s t (.commit w)

theorem RoleEffect.refl {pc : RolePc} : RoleEffect s s pc := .none fun _ => rfl

/-- A transfer statement that leaves the users alone. -/
theorem RoleEffect.of_users {pc : RolePc} (h : a.users = s.accounts.users) : RoleEffect s { s with accounts := a } pc :=
  .none fun u => by simp only [RoleStore.isAdmin, h]

theorem AccountStore.stamp_users {locked : List ℕ} : (a.stamp locked).users = a.users := rfl

theorem commitIssue_users {code_hash : String} {purged locked : List ℕ} :
    (commitIssue u code_hash purged locked a).users = a.users := by
  unfold commitIssue
  dsimp only
  split <;> rfl

theorem FoundCode.commitOrphan_users : (f.commitOrphan a).users = a.users := by
  unfold FoundCode.commitOrphan
  split <;> rfl

theorem role_move {S : RoleSys} {x y : Transactions.Session AccountLock RolePc}
    (h : Moves (RolePc.move hashCode) S i x y t) (hx : x.pc.Keeps S.store x.held) :
    y.pc.Keeps t y.held ∧ RoleEffect S.store t x.pc := by
  obtain ⟨pc, held⟩ := x
  cases pc with
  | transfer pc =>
    cases pc with
    | confirm v code p =>
      obtain ⟨rfl, rfl⟩ := h.of_read rfl
      refine ⟨?_, .refl⟩
      simp only
      split <;> trivial
    | purging v target code todo purged =>
      cases todo with
      | cons k todo =>
        obtain ⟨rfl, rfl⟩ := h.of_lock rfl
        exact ⟨trivial, .refl⟩
      | nil =>
        obtain ⟨rfl, rfl⟩ := h.of_read rfl
        refine ⟨?_, .refl⟩
        simp only
        split <;> trivial
    | lockFirst f code =>
      obtain ⟨rfl, rfl⟩ := h.of_lock rfl
      exact ⟨List.mem_cons_self, .refl⟩
    | lockSecond f code =>
      obtain ⟨rfl, rfl⟩ := h.of_lock rfl
      refine ⟨?_, .refl⟩
      -- the target is the smaller or the larger of the two
      rcases le_total f.code.source_user_id f.target_id with hle | hle
      · exact List.mem_cons.2 (.inl (by rw [max_eq_right hle]; rfl))
      · exact List.mem_cons_of_mem _ (by simpa [RolePc.Keeps, min_eq_right hle] using hx)
    | checks f code =>
      obtain ⟨rfl, rfl⟩ := h.of_read rfl
      refine ⟨?_, .refl⟩
      simp only
      split
      · trivial
      · split
        · trivial
        · exact hx
    | orphan f =>
      obtain ⟨rfl, rfl⟩ := h.of_lock rfl
      exact ⟨trivial, .refl⟩
    | swap f source =>
      obtain ⟨rfl, rfl⟩ := h.of_lock rfl
      exact ⟨List.mem_cons_of_mem _ hx, .refl⟩
    | commitOrphan f =>
      obtain ⟨rfl, rfl⟩ := h.of_commit rfl
      exact ⟨trivial, .of_users FoundCode.commitOrphan_users⟩
    | commit f source =>
      obtain ⟨rfl, rfl⟩ := h.of_commit rfl
      refine ⟨trivial, ?_⟩
      by_cases hlands : f.lands source S.store.accounts = true
      · refine .deletes hlands fun u hu => ?_
        simp only [RoleStore.isAdmin, FoundCode.commit_isSome hu]
      · exact .of_users (by rw [FoundCode.commit, if_neg hlands])
    | cancel v | issue v hash =>
      obtain ⟨rfl, rfl⟩ := h.of_read rfl
      exact ⟨trivial, .refl⟩
    | cancelling todo locked =>
      cases todo with
      | cons k todo =>
        obtain ⟨rfl, rfl⟩ := h.of_lock rfl
        exact ⟨trivial, .refl⟩
      | nil =>
        obtain ⟨rfl, rfl⟩ := h.of_commit rfl
        exact ⟨trivial, .of_users AccountStore.stamp_users⟩
    | issuePurging v hash todo purged =>
      cases todo with
      | cons k todo =>
        obtain ⟨rfl, rfl⟩ := h.of_lock rfl
        exact ⟨trivial, .refl⟩
      | nil =>
        obtain ⟨rfl, rfl⟩ := h.of_read rfl
        exact ⟨trivial, .refl⟩
    | issueStamping v hash purged todo locked =>
      cases todo with
      | cons k todo =>
        obtain ⟨rfl, rfl⟩ := h.of_lock rfl
        exact ⟨trivial, .refl⟩
      | nil =>
        obtain ⟨rfl, rfl⟩ := h.of_commit rfl
        exact ⟨trivial, .of_users commitIssue_users⟩
    | finished => exact (h.of_done rfl).elim
  | authorize caller target roles =>
    obtain ⟨rfl, rfl⟩ := h.of_read rfl
    refine ⟨?_, .refl⟩
    simp only
    split <;> trivial
  | load caller target roles =>
    obtain ⟨rfl, rfl⟩ := h.of_read rfl
    refine ⟨?_, .refl⟩
    simp only
    split
    · trivial
    split
    · rfl
    · rename_i hdemotes
      exact ⟨fun hd => absurd hd hdemotes, fun u hu => absurd hu List.not_mem_nil⟩
  | scan w =>
    obtain ⟨rfl, rfl⟩ := h.of_read rfl
    refine ⟨?_, .refl⟩
    have hnone : w.locked = [] := hx
    simp only [RolePc.Keeps, hnone, List.nil_append]
    exact ⟨RoleStore.nodup_admins, fun u hu => absurd hu List.not_mem_nil⟩
  | lockAdmins w todo =>
    cases todo with
    | nil =>
      obtain ⟨rfl, rfl⟩ := h.of_read rfl
      refine ⟨?_, .refl⟩
      simp only
      split
      · trivial
      · rename_i hmany
        exact ⟨fun _ => ⟨by simpa using hx.1, not_le.1 hmany⟩, hx.2⟩
    | cons v todo =>
      obtain ⟨rfl, rfl⟩ := h.of_lock rfl
      exact ⟨⟨hx.1, List.mem_cons_self, fun u hu => ⟨List.mem_cons_of_mem _ (hx.2 u hu).1, (hx.2 u hu).2⟩⟩, .refl⟩
  | recheck w v todo =>
    obtain ⟨rfl, rfl⟩ := h.of_read rfl
    obtain ⟨hnodup, hheld, hall⟩ := hx
    refine ⟨?_, .refl⟩
    simp only
    split
    · rename_i hadmin
      refine ⟨(List.perm_middle.nodup_iff).1 hnodup, fun u hu => ?_⟩
      rcases List.mem_cons.1 hu with rfl | hu
      · exact ⟨hheld, hadmin⟩
      · exact hall u hu
    · exact ⟨(List.nodup_cons.1 ((List.perm_middle.nodup_iff).1 hnodup)).2, hall⟩
  | update w =>
    obtain ⟨rfl, rfl⟩ := h.of_lock rfl
    exact ⟨⟨hx.1, fun u hu => ⟨List.mem_cons_of_mem _ (hx.2 u hu).1, (hx.2 u hu).2⟩, List.mem_cons_self⟩, .refl⟩
  | commit w =>
    obtain ⟨rfl, rfl⟩ := h.of_commit rfl
    exact ⟨trivial, .sets rfl⟩
  | finished => exact (h.of_done rfl).elim

/-- A statement takes no admin away whose row its session has not locked. -/
theorem RoleEffect.others {pc : RolePc} (h : RoleEffect s t pc) (hpc : pc.Keeps s held) (hu : .user u ∉ held)
    (hadmin : s.isAdmin u) : t.isAdmin u := by
  cases h with
  | none h => rwa [h]
  | deletes _ h =>
    rw [h u]
    · exact hadmin
    · rintro rfl
      exact hu hpc
  | sets h =>
    rw [h, RoleWrite.commit_isAdmin]
    · exact hadmin
    · rintro rfl
      exact hu hpc.2.2

theorem RolePc.Keeps.stable {pc : RolePc} (h : pc.Keeps s held)
    (hrows : ∀ u, .user u ∈ held → s.isAdmin u → t.isAdmin u) : pc.Keeps t held := by
  cases pc with
  | transfer pc => cases pc <;> exact h
  | lockAdmins w todo => exact ⟨h.1, fun u hu => ⟨(h.2 u hu).1, hrows u (h.2 u hu).1 (h.2 u hu).2⟩⟩
  | recheck w v todo => exact ⟨h.1, h.2.1, fun u hu => ⟨(h.2.2 u hu).1, hrows u (h.2.2 u hu).1 (h.2.2 u hu).2⟩⟩
  | update w => exact ⟨h.1, fun u hu => ⟨(h.2 u hu).1, hrows u (h.2 u hu).1 (h.2 u hu).2⟩⟩
  | commit w => exact ⟨h.1, fun u hu => ⟨(h.2.1 u hu).1, hrows u (h.2.1 u hu).1 (h.2.1 u hu).2⟩, h.2.2⟩
  | authorize | load | scan | finished => exact h

/-! ## Runs -/

/-- A transfer that deletes its target leaves an admin. -/
def LeavesAdmin : Event RoleOp → RoleSys → Prop
  | .move i, S => ∀ x f source, S.sessions.row i = some x → x.pc = .transfer (.commit f source) →
      f.lands source S.store.accounts = true → ∃ u, u ≠ f.target_id ∧ S.store.isAdmin u
  | _, _ => True

/-- A demotion leaves one of the other admins that it has locked. -/
theorem RoleWrite.commit_leaves (hpc : (RolePc.commit w).Keeps s held) (h : ∃ u, s.isAdmin u) :
    ∃ u, (w.commit s).isAdmin u := by
  obtain ⟨hmany, hlocked, -⟩ := hpc
  cases hd : w.demotes with
  | false =>
    obtain ⟨u, hu⟩ := h
    exact ⟨u, RoleWrite.commit_grows hd hu⟩
  | true =>
    obtain ⟨hnodup, hlen⟩ := hmany hd
    have hother : ∃ u ∈ w.locked, u ≠ w.target_id := by
      by_contra hnone
      push Not at hnone
      have hsub : w.locked ⊆ [w.target_id] := fun u hu => List.mem_singleton.2 (hnone u hu)
      have hle : w.locked.length ≤ 1 := hnodup.length_le_of_subset hsub
      omega
    obtain ⟨u, hu, hne⟩ := hother
    exact ⟨u, by rw [RoleWrite.commit_isAdmin hne]; exact (hlocked u hu).2⟩

/-- Some admin remains after every commit. -/
theorem admin_remains {start : RoleStore} {T : RoleSys} (h0 : ∃ u, start.isAdmin u)
    (h : Reach (RoleStep hashCode) LeavesAdmin (.idle start) T) : ∃ u, T.store.isAdmin u := by
  have hx := h.with_invariant (I := fun S => S.Exclusive) fun S hS => exclusive hS
  refine (outline (I := fun s => ∃ u, s.isAdmin u) (L := fun s _ x => x.pc.Keeps s x.held) hx h0 ?_ ?_ ?_).1
  · rintro op s i -
    cases op with
    | transfer op => cases op <;> trivial
    | setRole => trivial
  · rintro S i x y t hI hL ⟨hok, hexcl⟩ hx hmove
    obtain ⟨hy, heffect⟩ := role_move hmove (hL i x hx)
    refine ⟨?_, hy, fun j z hj hz => (hL j z hz).stable fun u hu hadmin => ?_⟩
    · obtain ⟨pc, held⟩ := x
      cases heffect with
      | none h =>
        obtain ⟨u, hu⟩ := hI
        exact ⟨u, by rw [h]; exact hu⟩
      | @deletes f source hlands h =>
        obtain ⟨u, hne, hu⟩ := hok _ f source hx rfl hlands
        exact ⟨u, by rw [h u hne]; exact hu⟩
      | @sets w h =>
        subst h
        exact RoleWrite.commit_leaves (hL i _ hx) hI
    -- nobody else holds a row that this session has locked
    · exact heffect.others (hL i x hx) (fun hu' => hexcl j z hz _ hu i x (Ne.symm hj) hx hu') hadmin
  · rintro S t ⟨u, hu⟩ - hkeep
    exact ⟨⟨u, hkeep.isAdmin hu⟩, fun j z _ hz => hz.stable fun v _ hv => hkeep.isAdmin hv⟩

end

/-! ## A demotion and a transfer -/

def sampleRole (is_admin : Bool) : Roles := ⟨is_admin, false, false⟩

/-- The three users of `sampleAccounts`; those with one of the ids are admins. -/
def sampleRoles (admins : List ℕ) : RoleStore := ⟨sampleAccounts, fun u => sampleRole (u ∈ admins)⟩

/-- The second user stops being an admin. -/
def sampleDemotion (locked : List ℕ) : RoleWrite := ⟨2, sampleRole true, sampleRole false, locked⟩

/-- The first admin demotes the second. -/
theorem sampleDemotion_leaves : ∃ T, Reach (RoleStep id) LeavesAdmin (.idle (sampleRoles [1, 2])) T ∧
    T.store.isAdmin 2 = false ∧ ∃ u, T.store.isAdmin u := by
  have h₀ : Reach (RoleStep id) LeavesAdmin (.idle (sampleRoles [1, 2])) (.idle (sampleRoles [1, 2])) := .refl
  have h₁ := run_start h₀ (.setRole 1 2 (sampleRole false)) trivial
  have h₂ := run_read (p := .load 1 2 (sampleRole false)) h₁ 1 rfl rfl (by decide +kernel)
    (by rintro x f source hx hf; cases hx; cases hf)
  have h₃ := run_read (p := .scan (sampleDemotion [])) h₂ 1 rfl rfl (by decide +kernel)
    (by rintro x f source hx hf; cases hx; cases hf)
  have h₄ := run_read (p := .lockAdmins (sampleDemotion []) [1, 2]) h₃ 1 rfl rfl (by decide +kernel)
    (by rintro x f source hx hf; cases hx; cases hf)
  have h₅ := run_lock h₄ 1 rfl rfl (Sys.freeFor_of_check (by decide)) (by rintro x f source hx hf; cases hx; cases hf)
  have h₆ := run_read (p := .lockAdmins (sampleDemotion [1]) [2]) h₅ 1 rfl rfl (by decide +kernel)
    (by rintro x f source hx hf; cases hx; cases hf)
  have h₇ := run_lock h₆ 1 rfl rfl (Sys.freeFor_of_check (by decide)) (by rintro x f source hx hf; cases hx; cases hf)
  have h₈ := run_read (p := .lockAdmins (sampleDemotion [2, 1]) []) h₇ 1 rfl rfl (by decide +kernel)
    (by rintro x f source hx hf; cases hx; cases hf)
  have h₉ := run_read (p := .update (sampleDemotion [2, 1])) h₈ 1 rfl rfl rfl
    (by rintro x f source hx hf; cases hx; cases hf)
  have h₁₀ := run_lock h₉ 1 rfl rfl (Sys.freeFor_of_check (by decide))
    (by rintro x f source hx hf; cases hx; cases hf)
  have h₁₁ := run_commit (p := .finished) h₁₀ 1 rfl rfl rfl (by rintro x f source hx hf; cases hx; cases hf)
  exact ⟨_, h₁₁, by decide +kernel, admin_remains ⟨1, by decide +kernel⟩ h₁₁⟩

/-- The only admin, with no PIN and nothing else on the account, enters a transfer
code. The row is deleted, and nobody is an admin any more. -/
theorem transfer_takes_last_admin : ¬ ∀ (hashCode : String → String) (start : RoleStore) (T : RoleSys),
    (∃ u, start.isAdmin u) → Reach (RoleStep hashCode) Free (.idle start) T → ∃ u, T.store.isAdmin u := by
  intro hall
  have h₀ : Reach (RoleStep id) Free (.idle (sampleRoles [2])) (.idle (sampleRoles [2])) := .refl
  have h₁ := run_start h₀ (.transfer (.confirm 2 "123456" false)) trivial
  have h₂ := run_read (p := .transfer (.purging 2 (sampleAccount 102) "123456" [] [])) h₁ 1 rfl rfl rfl trivial
  have h₃ := run_read (p := .transfer (.lockFirst (sampleFound 2 102) "123456")) h₂ 1 rfl rfl (by decide +kernel) trivial
  have h₄ := run_lock h₃ 1 rfl rfl (Sys.freeFor_of_check (by decide)) trivial
  have h₅ := run_lock h₄ 1 rfl rfl (Sys.freeFor_of_check (by decide)) trivial
  have h₆ := run_read (p := .transfer (.swap (sampleFound 2 102) (sampleAccount 101))) h₅ 1 rfl rfl (by decide +kernel)
    trivial
  have h₇ := run_lock h₆ 1 rfl rfl (Sys.freeFor_of_check (by decide)) trivial
  have h₈ := run_commit (p := .transfer .finished) h₇ 1 rfl rfl rfl trivial
  obtain ⟨u, hu⟩ := hall id _ _ ⟨2, by decide +kernel⟩ h₈
  obtain ⟨hrow, hrole⟩ := RoleStore.isAdmin_iff.1 hu
  have hflag : decide (u ∈ [2]) = true := hrole
  obtain rfl : u = 2 := List.mem_singleton.1 (of_decide_eq_true hflag)
  revert hrow
  decide +kernel

end Garant
