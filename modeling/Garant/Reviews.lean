import Garant.Lib.Transactions
import Garant.Schema
/-!
# Reviews and their counters

`post_review` of `services.py` and the three admin actions on reviews of
`routers/admin/content.py`, statement by statement, with the TOTP code that an
admin may spend first and the entry in the audit log. `User.good` and `User.bad`
are counted again by each of them, under a lock on the target that is taken
before the counting statement. `counters_right`: so they are right after every
commit, and no author reviews a deal twice.

A session sees its own writes at once and everyone else's after the commit, so
what it has written so far is part of its state (`ReviewWrite`).
-/
open Transactions

namespace Garant

/-- `reviews`. -/
structure Review where
  author_id : ℕ
  target_id : ℕ
  deal_id : Option ℕ
  rating : ℤ
  text : String
deriving DecidableEq

/-- The counters of a user, `users.good` and `users.bad`. -/
structure Counters where
  good : ℕ
  bad : ℕ
deriving DecidableEq

/-- The tables the review requests share. `touched` is not in the program: it
lists the users whose counters were written. -/
structure ReviewStore where
  users : Table Counters
  reviews : Table Review
  deals : Table Deal
  touched : List ℕ

/-- The rows that the two sums of `recompute_user_rating` count. -/
def Review.isGood (target_id : ℕ) (r : Review) : Bool := r.target_id = target_id ∧ 4 ≤ r.rating
def Review.isBad (target_id : ℕ) (r : Review) : Bool := r.target_id = target_id ∧ r.rating ≤ 2

def countersOf (reviews : Table Review) (target_id : ℕ) : Counters :=
  ⟨reviews.count (Review.isGood target_id), reviews.count (Review.isBad target_id)⟩

/-- What a request has written to `reviews`. -/
inductive ReviewWrite
  | insert (review : Review)
  /-- The columns an edit changes. -/
  | edit (review_id : ℕ) (rating : Option ℤ) (text : Option String)
  | delete (review_id : ℕ)
deriving DecidableEq

/-- The table as the request sees it, and as it is after the commit. -/
def ReviewWrite.apply (reviews : Table Review) : ReviewWrite → Table Review
  | .insert review => reviews.insert review
  | .edit i rating text => match reviews.row i with
    | none => reviews
    | some r => reviews.set i { r with rating := rating.getD r.rating, text := text.getD r.text }
  | .delete i => reviews.erase i

/-- `REVIEWABLE_DEAL_STATUSES`. -/
def reviewable : DealStatus → Bool
  | .completed | .resolved_for_buyer | .resolved_for_seller => true
  | _ => false

/-- Another review of the deal by the author. -/
def ReviewStore.reviewed (s : ReviewStore) (author_id deal_id : ℕ) : Bool :=
  s.reviews.ids (fun r => r.author_id = author_id ∧ r.deal_id = some deal_id) ≠ []

/-- The checks of `post_review` on the deal. -/
def ReviewStore.mayReview (s : ReviewStore) (author_id target_id deal_id : ℕ) : Bool :=
  (s.deals.row deal_id).any fun d =>
    (author_id = d.buyer_id ∨ author_id = d.seller_id) ∧
      (if author_id = d.buyer_id then d.seller_id else d.buyer_id) = target_id ∧ reviewable d.status

/-- What a review statement locks: an entry of `uq_reviews_author_deal`, a
review, a user for update, or the row of an admin whose TOTP counter it writes. -/
inductive ReviewLock
  | key (author_id deal_id : ℕ)
  | review (id : ℕ)
  | user (id : ℕ)
  | totp (user_id : ℕ)
deriving DecidableEq

/-- `create_review`, `update_review` and `delete_review` of an admin. -/
inductive AdminCall
  | create (review : Review)
  | update (review_id : ℕ) (rating : ℤ) (text : String)
  | delete (review_id : ℕ)
deriving DecidableEq

/-- Where a request is; `admin` is the admin who makes it, if it is one's. -/
inductive ReviewPc
  /-- `_consume_totp` of a request that sends a code: it updates the admin's row. -/
  | totp (admin : ℕ) (call : AdminCall)
  /-- `post_review`: the deal, and then whether there is a review already. -/
  | post (author_id target_id : ℕ) (deal_id : Option ℕ) (rating : ℤ) (text : String)
  | existing (review : Review) (deal_id : ℕ)
  | endpoint (admin : ℕ) (call : AdminCall)
  /-- The `INSERT`: it waits for another insert of the same author and deal,
  checks the unique index, and then shares the two users' rows. -/
  | insert (admin : Option ℕ) (review : Review)
  | unique (admin : Option ℕ) (review : Review)
  | shareAuthor (admin : Option ℕ) (review : Review)
  | shareTarget (admin : Option ℕ) (review : Review)
  /-- The entry of `delete_review` in the audit log, which shares the admin's row. -/
  | auditDelete (admin review_id target_id : ℕ)
  /-- The flush of an `UPDATE` or `DELETE`; a target to recount, if any. -/
  | lockReview (admin review_id : ℕ) (w : ReviewWrite) (target_id : Option ℕ)
  | flushed (admin review_id : ℕ) (w : ReviewWrite) (target_id : Option ℕ)
  /-- `lock_user_for_rating` and `recompute_user_rating`. -/
  | lockTarget (admin : Option ℕ) (target_id : ℕ) (w : ReviewWrite)
  | recount (admin : Option ℕ) (target_id : ℕ) (w : ReviewWrite)
  /-- The entries of the other two: they are flushed by the commit. -/
  | audit (admin : ℕ) (w : ReviewWrite) (counted : Option (ℕ × Counters))
  | commit (admin : Option ℕ) (w : ReviewWrite) (counted : Option (ℕ × Counters))
  | finished
deriving DecidableEq

/-- The commit of a request, with the counters it wrote. -/
def ReviewStore.commit (s : ReviewStore) (w : ReviewWrite) (counted : Option (ℕ × Counters)) : ReviewStore :=
  { s with
    reviews := w.apply s.reviews
    users := counted.elim s.users fun c => s.users.set c.1 c.2
    touched := s.touched ++ (counted.map Prod.fst).toList }

/-- What is left to do: `delete_review` has made its entry before. -/
def ReviewPc.closing (admin : Option ℕ) (w : ReviewWrite) (counted : Option (ℕ × Counters)) : ReviewPc :=
  match admin, w with
  | some a, .insert _ | some a, .edit .. => .audit a w counted
  | _, _ => .commit admin w counted

/-- The next statement. -/
def ReviewPc.move : ReviewPc → Move ReviewStore ReviewLock ReviewPc
  -- who is refused stops here, so a request that goes on has spent its code
  | .totp admin call => .lock (.totp admin) (.endpoint admin call)
  | .post author_id target_id deal_id rating text => .read fun s => match deal_id with
    | none => .finished
    | some d =>
      if rating < 1 ∨ 5 < rating ∨ 1024 < text.length ∨ s.mayReview author_id target_id d = false then .finished
      else .existing ⟨author_id, target_id, deal_id, rating, text⟩ d
  | .existing r d => .read fun s => if s.reviewed r.author_id d then .finished else .insert none r
  | .endpoint admin (.create r) => .read fun s =>
      if r.author_id = r.target_id ∨ (s.users.row r.author_id).isNone ∨ (s.users.row r.target_id).isNone then .finished
      else .insert (some admin) r
  | .insert admin r => match r.deal_id with
    | some d => .lock (.key r.author_id d) (.unique admin r)
    -- nulls are distinct in the index
    | none => .read fun _ => .shareAuthor admin r
  | .unique admin r => .read fun s => if r.deal_id.any (s.reviewed r.author_id ·) then .finished else .shareAuthor admin r
  | .shareAuthor admin r => .read fun s => if (s.users.row r.author_id).isSome then .shareTarget admin r else .finished
  | .shareTarget admin r => .read fun s =>
      if (s.users.row r.target_id).isSome then .lockTarget admin r.target_id (.insert r) else .finished
  | .endpoint admin (.update i rating text) => .read fun s => match s.reviews.row i with
    | none => .finished
    | some r =>
      let new_rating := if r.rating = rating then none else some rating
      let new_text := if r.text = text then none else some text
      if new_rating = none ∧ new_text = none then .finished
      else .lockReview admin i (.edit i new_rating new_text) (new_rating.map fun _ => r.target_id)
  | .endpoint admin (.delete i) => .read fun s => match s.reviews.row i with
    | none => .finished
    | some r => .auditDelete admin i r.target_id
  | .auditDelete admin i target_id => .read fun s =>
      if (s.users.row admin).isSome then .lockReview admin i (.delete i) (some target_id) else .finished
  | .lockReview admin i w target_id => .lock (.review i) (.flushed admin i w target_id)
  | .flushed admin i w target_id => .read fun s =>
      -- an `UPDATE` of a row that is gone raises, a `DELETE` does not
      if (s.reviews.row i).isNone ∧ w ≠ .delete i then .finished
      else match target_id.filter fun t => (s.users.row t).isSome with
      | none => .closing (some admin) w none
      | some t => .lockTarget (some admin) t w
  | .lockTarget admin t w => .lock (.user t) (.recount admin t w)
  | .recount admin t w => .read fun s => .closing admin w (some (t, countersOf (w.apply s.reviews) t))
  | .audit admin w counted => .read fun s => if (s.users.row admin).isSome then .commit (some admin) w counted else .finished
  | .commit _ w counted => .commit (fun s => s.commit w counted) fun _ => .finished
  | .finished => .done

/-- The requests. An admin's may spend a TOTP code; with a TOTP session it does not. -/
inductive ReviewOp
  | post (author_id target_id : ℕ) (deal_id : Option ℕ) (rating : ℤ) (text : String)
  | byAdmin (admin : ℕ) (code : Bool) (call : AdminCall)

def ReviewOp.entry : ReviewOp → ReviewPc
  | .post author_id target_id deal_id rating text => .post author_id target_id deal_id rating text
  | .byAdmin admin code call => if code then .totp admin call else .endpoint admin call

abbrev ReviewSys := Transactions.Sys ReviewStore ReviewLock ReviewPc

/-- Other requests change the deals and nothing else of this. -/
def LeavesReviews (s u : ReviewStore) : Prop :=
  u.users = s.users ∧ u.reviews = s.reviews ∧ u.touched = s.touched

def ReviewStep : Event ReviewOp → ReviewSys → ReviewSys → Prop :=
  Transactions.Step ReviewPc.move ReviewOp.entry LeavesReviews

/-! ## What a write changes -/

/-- The review that an edit or a deletion is of. -/
def ReviewWrite.row : ReviewWrite → Option ℕ
  | .insert _ => none
  | .edit i _ _ | .delete i => some i

/-- The write is about reviews of this user. -/
def ReviewWrite.About (reviews : Table Review) (target_id : ℕ) : ReviewWrite → Prop
  | .insert review => review.target_id = target_id
  | .edit i _ _ | .delete i => ∀ r, reviews.row i = some r → r.target_id = target_id

/-- An edit of the text only. -/
def ReviewWrite.Quiet (w : ReviewWrite) : Prop := ∃ i text, w = .edit i none text

/-- The write leaves the counts of this user alone. -/
def ReviewWrite.Spares (reviews : Table Review) (user_id : ℕ) (w : ReviewWrite) : Prop :=
  w.Quiet ∨ ∃ t, w.About reviews t ∧ t ≠ user_id

/-- A predicate of the counts of a user: of the target and the rating. -/
structure CountsFor (user_id : ℕ) (p : Review → Bool) : Prop where
  target : ∀ r, p r = true → r.target_id = user_id
  text : ∀ r text, p { r with text } = p r

section
variable {reviews : Table Review} {v w : ReviewWrite} {i t u : ℕ} {r r' : Review} {p : Review → Bool}

theorem countsFor_good : CountsFor u (Review.isGood u) :=
  ⟨fun _ h => (of_decide_eq_true h).1, fun _ _ => rfl⟩

theorem countsFor_bad : CountsFor u (Review.isBad u) :=
  ⟨fun _ h => (of_decide_eq_true h).1, fun _ _ => rfl⟩

theorem CountsFor.false_of_ne (hp : CountsFor u p) (h : r.target_id ≠ u) : p r = false :=
  Bool.eq_false_iff.2 fun hr => h (hp.target r hr)

/-- A review that is there after a write was there before, with the same
author, target and deal, unless it was just inserted. -/
theorem ReviewWrite.apply_row_old (hi : i < reviews.next) (h : (w.apply reviews).row i = some r') :
    ∃ r, reviews.row i = some r ∧ r'.author_id = r.author_id ∧ r'.target_id = r.target_id ∧ r'.deal_id = r.deal_id := by
  cases w with
  | insert review =>
    rw [apply, Table.insert_row, if_neg hi.ne] at h
    exact ⟨r', h, rfl, rfl, rfl⟩
  | edit k rating text =>
    rw [apply] at h
    split at h
    · exact ⟨r', h, rfl, rfl, rfl⟩
    · next r hr =>
      rw [Table.set_row hr] at h
      split at h
      · next hik =>
        subst hik
        cases h
        exact ⟨r, hr, rfl, rfl, rfl⟩
      · exact ⟨r', h, rfl, rfl, rfl⟩
  | delete k =>
    rw [apply, Table.erase_row] at h
    split at h
    · cases h
    · exact ⟨r', h, rfl, rfl, rfl⟩

theorem ReviewWrite.apply_row_ne (hi : i < reviews.next) (h : w.row ≠ some i) : (w.apply reviews).row i = reviews.row i := by
  cases w with
  | insert review => rw [apply, Table.insert_row, if_neg hi.ne]
  | edit k rating text =>
    have hne : i ≠ k := fun hik => h (hik ▸ rfl)
    rw [apply]
    split
    · rfl
    · exact Table.set_row_ne hne
  | delete k =>
    have hne : i ≠ k := fun hik => h (hik ▸ rfl)
    rw [apply, Table.erase_row, if_neg hne]

theorem ReviewWrite.next_le (w : ReviewWrite) (reviews : Table Review) : reviews.next ≤ (w.apply reviews).next := by
  cases w with
  | insert review => exact Nat.le_succ _
  | edit k rating text =>
    rw [apply]
    split <;> exact le_rfl
  | delete k => exact le_rfl

theorem ReviewWrite.About.apply (h : w.About reviews t) (hi : ∀ i, w.row = some i → i < reviews.next) :
    w.About (v.apply reviews) t := by
  cases w with
  | insert review => exact h
  | edit k rating text | delete k =>
    intro r hr
    obtain ⟨r₀, h₀, -, htarget, -⟩ := ReviewWrite.apply_row_old (hi k rfl) hr
    rw [htarget]
    exact h r₀ h₀

/-- Row by row, what counts for a user whom the write spares counts as before. -/
theorem ReviewWrite.Spares.row_any (h : w.Spares reviews u) (hp : CountsFor u p) (i : ℕ) :
    ((w.apply reviews).row i).any p = (reviews.row i).any p := by
  rcases h with ⟨k, text, rfl⟩ | ⟨t, habout, hne⟩
  · rw [apply]
    split
    · rfl
    · next r hr =>
      rw [Table.set_row hr]
      split
      · next hik =>
        subst hik
        rw [hr]
        exact hp.text r _
      · rfl
  · cases w with
    | insert review =>
      rw [apply, Table.insert_row]
      split
      · next hi =>
        rw [hi, reviews.fresh _ le_rfl]
        exact hp.false_of_ne (habout.trans_ne hne)
      · rfl
    | edit k rating text =>
      rw [apply]
      split
      · rfl
      · next r hr =>
        rw [Table.set_row hr]
        split
        · next hik =>
          subst hik
          have ht : r.target_id ≠ u := (habout r hr).trans_ne hne
          rw [hr]
          exact (hp.false_of_ne (r := { r with rating := rating.getD r.rating, text := text.getD r.text }) ht).trans
            (hp.false_of_ne ht).symm
        · rfl
    | delete k =>
      rw [apply, Table.erase_row]
      split
      · next hik =>
        subst hik
        cases hr : reviews.row i with
        | none => rfl
        | some r => exact (hp.false_of_ne ((habout r hr).trans_ne hne)).symm
      · rfl

theorem ReviewWrite.Spares.counters (h : w.Spares reviews u) : countersOf (w.apply reviews) u = countersOf reviews u := by
  rw [countersOf, countersOf, Table.count_congr (h.row_any countsFor_good), Table.count_congr (h.row_any countsFor_bad)]

/-- The same under a write `w` of one's own, if the other one is not of the same review. -/
theorem ReviewWrite.Spares.count_under (h : v.Spares reviews u) (hp : CountsFor u p)
    (hne : ∀ i, w.row = some i → v.row ≠ some i)
    (hi : ∀ i, w.row = some i → i < reviews.next) :
    (w.apply (v.apply reviews)).count p = (w.apply reviews).count p := by
  cases w with
  | insert review => rw [apply, apply, Table.count_insert, Table.count_insert, Table.count_congr (h.row_any hp)]
  | edit k rating text =>
    have hk := apply_row_ne (w := v) (hi k rfl) (hne k rfl)
    refine Table.count_congr fun i => ?_
    rw [apply, apply, hk]
    cases hr : reviews.row k with
    | none => exact h.row_any hp i
    | some r =>
      rw [Table.set_row (hk.trans hr), Table.set_row hr]
      split
      · rfl
      · exact h.row_any hp i
  | delete k =>
    refine Table.count_congr fun i => ?_
    rw [apply, apply, Table.erase_row, Table.erase_row]
    split
    · rfl
    · exact h.row_any hp i

theorem ReviewWrite.Spares.counters_under (h : v.Spares reviews u) (hne : ∀ i, w.row = some i → v.row ≠ some i)
    (hi : ∀ i, w.row = some i → i < reviews.next) :
    countersOf (w.apply (v.apply reviews)) u = countersOf (w.apply reviews) u := by
  rw [countersOf, countersOf, h.count_under countsFor_good hne hi, h.count_under countsFor_bad hne hi]

end

/-! ## What a session knows -/

/-- The counters of the user are what the reviews say. -/
def ReviewStore.Right (s : ReviewStore) (user_id : ℕ) : Prop :=
  ∀ c, s.users.row user_id = some c → c = countersOf s.reviews user_id

/-- No two reviews of one deal by one author. -/
def ReviewStore.OnePerDeal (s : ReviewStore) : Prop :=
  ∀ i j r r' d, s.reviews.row i = some r → s.reviews.row j = some r' → r.author_id = r'.author_id →
    r.deal_id = some d → r'.deal_id = some d → i = j

/-- The session has the right to its write: it holds the entry of the unique
index, and nobody has that key; or it holds the review. -/
def ReviewWrite.Owned (s : ReviewStore) (held : List ReviewLock) : ReviewWrite → Prop
  | .insert r => ∀ d, r.deal_id = some d → .key r.author_id d ∈ held ∧ s.reviewed r.author_id d = false
  | .edit i _ _ | .delete i => .review i ∈ held ∧ i < s.reviews.next

/-- The target that an edit or a deletion found in the review it loaded. -/
structure Loaded (s : ReviewStore) (i : ℕ) (w : ReviewWrite) (target_id : Option ℕ) : Prop where
  row : w.row = some i
  known : i < s.reviews.next
  about : ∀ t, target_id = some t → w.About s.reviews t
  quiet : target_id = none → w.Quiet

/-- A write with the user whose counters it changes. -/
structure Ready (s : ReviewStore) (held : List ReviewLock) (t : ℕ) (w : ReviewWrite) : Prop where
  owned : w.Owned s held
  about : w.About s.reviews t
  exists_ : (s.users.row t).isSome

/-- A write whose target is counted, or has nothing to count. -/
def CountedFor (s : ReviewStore) (held : List ReviewLock) (w : ReviewWrite) : Option (ℕ × Counters) → Prop
  | some (t, c) => .user t ∈ held ∧ Ready s held t w ∧ c = countersOf (w.apply s.reviews) t
  | none => w.Owned s held ∧ (w.Quiet ∨ ∃ t, w.About s.reviews t ∧ s.users.row t = none)

/-- What a session knows at each statement. -/
def ReviewPc.Knows (s : ReviewStore) (held : List ReviewLock) : ReviewPc → Prop
  | .unique _ r => ∀ d, r.deal_id = some d → .key r.author_id d ∈ held
  | .shareAuthor _ r | .shareTarget _ r => (ReviewWrite.insert r).Owned s held
  | .auditDelete _ i target_id => Loaded s i (.delete i) (some target_id)
  | .lockReview _ i w target_id => Loaded s i w target_id
  | .flushed _ i w target_id => .review i ∈ held ∧ Loaded s i w target_id
  | .lockTarget _ t w => Ready s held t w
  | .recount _ t w => .user t ∈ held ∧ Ready s held t w
  | .audit _ w counted | .commit _ w counted => CountedFor s held w counted
  | _ => True

section
variable {s : ReviewStore} {held held' : List ReviewLock} {v w : ReviewWrite} {counted : Option (ℕ × Counters)} {i t : ℕ}

theorem ReviewStore.commit_isSome (u : ℕ) : ((s.commit w counted).users.row u).isSome = (s.users.row u).isSome := by
  cases counted with
  | none => rfl
  | some c =>
    show ((s.users.set c.1 c.2).row u).isSome = _
    by_cases hu : u = c.1
    · subst hu
      cases hr : s.users.row c.1 with
      | none =>
        show (if c.1 = c.1 then (s.users.row c.1).map _ else _).isSome = _
        rw [if_pos rfl, hr]
        rfl
      | some old => rw [Table.set_row hr, if_pos rfl, Option.isSome_some, Option.isSome_some]
    · rw [Table.set_row_ne hu]

theorem ReviewWrite.Owned.known (h : w.Owned s held) : ∀ i, w.row = some i → i < s.reviews.next := by
  intro i hi
  cases w with
  | insert => cases hi
  | edit k _ _ | delete k =>
    cases hi
    exact h.2

/-- Two sessions' writes are never of the same review. -/
theorem ReviewWrite.Owned.row_ne (h : w.Owned s held) (h' : v.Owned s held') (hx : ∀ r ∈ held, r ∉ held') :
    ∀ i, w.row = some i → v.row ≠ some i := by
  intro i hi hv
  cases w with
  | insert => cases hi
  | edit k _ _ | delete k =>
    cases hi
    cases v with
    | insert => cases hv
    | edit k' _ _ | delete k' =>
      cases hv
      exact hx _ h.1 h'.1

/-- Another session's commit takes nothing away. -/
theorem ReviewWrite.Owned.commit (h : w.Owned s held) (h' : v.Owned s held') (hx : ∀ r ∈ held, r ∉ held') :
    w.Owned (s.commit v counted) held := by
  cases w with
  | insert r =>
    intro d hd
    obtain ⟨hkey, hnone⟩ := h d hd
    refine ⟨hkey, ?_⟩
    unfold ReviewStore.reviewed at hnone ⊢
    rw [decide_eq_false_iff_not, not_not] at hnone ⊢
    rw [List.eq_nil_iff_forall_not_mem] at hnone ⊢
    intro i hi
    obtain ⟨r', hr', hp⟩ := Table.mem_ids.1 hi
    by_cases hlt : i < s.reviews.next
    · obtain ⟨r₀, h₀, hauthor, -, hdeal⟩ := ReviewWrite.apply_row_old hlt hr'
      refine hnone i (Table.mem_ids.2 ⟨r₀, h₀, ?_⟩)
      simpa [hauthor, hdeal] using hp
    · -- a new row: its author and deal are locked by whoever inserted it
      cases v with
      | insert rv =>
        have hrow : (if i = s.reviews.next then some rv else s.reviews.row i) = some r' := hr'
        split at hrow
        · cases hrow
          simp only [decide_eq_true_eq] at hp
          exact hx _ hkey (hp.1 ▸ (h' d hp.2).1)
        · exact hlt (Table.lt_next hrow)
      | edit k rating text =>
        have hnext : (ReviewWrite.apply s.reviews (.edit k rating text)).next = s.reviews.next := by
          simp only [ReviewWrite.apply]
          split <;> rfl
        exact hlt (hnext ▸ Table.lt_next hr')
      | delete k => exact hlt (Table.lt_next (t := s.reviews.erase k) hr')
  | edit k _ _ | delete k => exact ⟨h.1, h.2.trans_le (ReviewWrite.next_le v s.reviews)⟩

/-- One more lock does no harm. -/
theorem ReviewWrite.Owned.locked {l : ReviewLock} (h : w.Owned s held) : w.Owned s (l :: held) := by
  cases w with
  | insert r => exact fun d hd => ⟨List.mem_cons_of_mem _ (h d hd).1, (h d hd).2⟩
  | edit | delete => exact ⟨List.mem_cons_of_mem _ h.1, h.2⟩

/-- Once the review is locked, the write is the session's. -/
theorem Loaded.owned {target_id : Option ℕ} (h : Loaded s i w target_id) (hheld : .review i ∈ held) : w.Owned s held := by
  have hrow := h.row
  cases w with
  | insert => cases hrow
  | edit k _ _ | delete k =>
    cases hrow
    exact ⟨hheld, h.known⟩

/-- An edit is about its target when it changes the rating. -/
theorem loaded_edit {r : Review} {new_rating : Option ℤ} {new_text : Option String} (hr : s.reviews.row i = some r) :
    Loaded s i (.edit i new_rating new_text) (new_rating.map fun _ => r.target_id) where
  row := rfl
  known := Table.lt_next hr
  about := by
    intro t ht r' hr'
    obtain ⟨_, -, rfl⟩ := Option.map_eq_some_iff.1 ht
    rw [hr] at hr'
    cases hr'
    rfl
  quiet := by
    intro hnone
    rw [Option.map_eq_none_iff] at hnone
    rw [hnone]
    exact ⟨i, _, rfl⟩

theorem loaded_delete {r : Review} (hr : s.reviews.row i = some r) : Loaded s i (.delete i) (some r.target_id) where
  row := rfl
  known := Table.lt_next hr
  about := by
    intro t ht r' hr'
    cases ht
    rw [hr] at hr'
    cases hr'
    rfl
  quiet h := by cases h

theorem Loaded.commit {target_id : Option ℕ} (h : Loaded s i w target_id) : Loaded (s.commit v counted) i w target_id where
  row := h.row
  known := h.known.trans_le (ReviewWrite.next_le v s.reviews)
  about := by
    refine fun t ht => (h.about t ht).apply fun k hk => ?_
    obtain rfl : i = k := Option.some.inj (h.row.symm.trans hk)
    exact h.known
  quiet := h.quiet

theorem Ready.commit (h : Ready s held t w) (h' : v.Owned s held') (hx : ∀ r ∈ held, r ∉ held') :
    Ready (s.commit v counted) held t w where
  owned := h.owned.commit h' hx
  about := h.about.apply h.owned.known
  exists_ := by
    rw [ReviewStore.commit_isSome]
    exact h.exists_

theorem CountedFor.owned (h : CountedFor s held' v counted) : v.Owned s held' := by
  cases counted with
  | none => exact h.1
  | some c => exact h.2.1.owned

/-- A commit spares every user but the one whose row it has locked and counted. -/
theorem CountedFor.spares (h : CountedFor s held' v counted) (ht : (s.users.row t).isSome)
    (hne : ∀ c, counted = some c → .user c.1 ∈ held' → c.1 ≠ t) : v.Spares s.reviews t := by
  cases counted with
  | none =>
    rcases h.2 with hq | ⟨t', habout, hnone⟩
    · exact .inl hq
    · refine .inr ⟨t', habout, ?_⟩
      rintro rfl
      rw [hnone] at ht
      cases ht
  | some c => exact .inr ⟨c.1, h.2.1.about, hne c rfl h.1⟩

/-- What is counted stays so when another session commits. -/
theorem CountedFor.commit {c : Option (ℕ × Counters)} (h : CountedFor s held w c) (h' : CountedFor s held' v counted)
    (hx : ∀ r ∈ held, r ∉ held') : CountedFor (s.commit v counted) held w c := by
  cases c with
  | none =>
    refine ⟨h.1.commit h'.owned hx, h.2.imp_right ?_⟩
    rintro ⟨t, habout, hnone⟩
    refine ⟨t, habout.apply h.1.known, ?_⟩
    rw [← Option.isNone_iff_eq_none, ← Option.not_isSome, ReviewStore.commit_isSome, hnone]
    rfl
  | some c =>
    obtain ⟨huser, hready, hc⟩ := h
    have hspares := h'.spares hready.exists_ fun c' _ hheld heq => hx _ huser (heq ▸ hheld)
    refine ⟨huser, hready.commit h'.owned hx, hc.trans ?_⟩
    exact (hspares.counters_under (hready.owned.row_ne h'.owned hx) hready.owned.known).symm

/-- What a session knows stays true when another one commits. -/
theorem ReviewPc.Knows.commit {pc : ReviewPc} (h : pc.Knows s held) (h' : CountedFor s held' v counted)
    (hx : ∀ r ∈ held, r ∉ held') : pc.Knows (s.commit v counted) held := by
  cases pc with
  | unique admin r => exact h
  | shareAuthor admin r | shareTarget admin r => exact ReviewWrite.Owned.commit (w := .insert r) h h'.owned hx
  | auditDelete admin i target_id | lockReview admin i w target_id => exact Loaded.commit h
  | flushed admin i w target_id => exact ⟨h.1, h.2.commit⟩
  | lockTarget admin t w => exact Ready.commit h h'.owned hx
  | recount admin t w => exact ⟨h.1, h.2.commit h'.owned hx⟩
  | audit admin w c | commit admin w c => exact CountedFor.commit h h' hx
  | _ => trivial

theorem ReviewPc.Knows.congr {pc : ReviewPc} {u : ReviewStore} (h : pc.Knows s held) (husers : u.users = s.users)
    (hreviews : u.reviews = s.reviews) : pc.Knows u held := by
  cases s
  cases u
  simp only at husers hreviews
  subst husers hreviews
  cases pc with
  | auditDelete admin i target_id | lockReview admin i w target_id =>
    obtain ⟨hrow, hknown, habout, hquiet⟩ : Loaded _ i _ _ := h
    exact ⟨hrow, hknown, habout, hquiet⟩
  | flushed admin i w target_id => exact ⟨h.1, h.2.row, h.2.known, h.2.about, h.2.quiet⟩
  | lockTarget admin t w =>
    obtain ⟨howned, habout, hexists⟩ : Ready _ held t w := h
    exact ⟨howned, habout, hexists⟩
  | recount admin t w => exact ⟨h.1, h.2.owned, h.2.about, h.2.exists_⟩
  | audit admin w c | commit admin w c =>
    cases c with
    | none => exact h
    | some c => exact ⟨h.1, ⟨h.2.1.owned, h.2.1.about, h.2.1.exists_⟩, h.2.2⟩
  | _ => exact h

theorem CountedFor.closing (h : CountedFor s held w counted) (admin : Option ℕ) :
    (ReviewPc.closing admin w counted).Knows s held := by
  cases admin <;> cases w <;> exact h

end

/-! ## Runs -/

/-- What holds of the store; `start` is the store the requests began with. -/
structure ReviewsOk (start s : ReviewStore) : Prop where
  right : ∀ u, u ∈ s.touched ∨ start.Right u → s.Right u
  one : s.OnePerDeal

section
variable {start s u : ReviewStore} {held : List ReviewLock} {w : ReviewWrite} {counted : Option (ℕ × Counters)}

/-- The commit of a request keeps the counters right. -/
theorem ReviewsOk.commit (hs : ReviewsOk start s) (h : CountedFor s held w counted) :
    ReviewsOk start (s.commit w counted) where
  right := by
    intro v hv c hc
    have hsome : (s.users.row v).isSome := by
      have hkept : ((s.commit w counted).users.row v).isSome = (s.users.row v).isSome := ReviewStore.commit_isSome v
      rw [← hkept, hc]
      rfl
    by_cases hcounted : ∃ c', counted = some (v, c')
    · -- the user whose counters this request has written
      obtain ⟨c', rfl⟩ := hcounted
      obtain ⟨old, hold⟩ := Option.isSome_iff_exists.1 hsome
      have hrow : (s.users.set v c').row v = some c := hc
      rw [Table.set_row hold, if_pos rfl] at hrow
      cases hrow
      exact h.2.2
    · have hspares := h.spares hsome fun c' hc' _ heq => hcounted ⟨c'.2, by rw [hc', ← heq]⟩
      have hrow : s.users.row v = some c := by
        cases counted with
        | none => exact hc
        | some c' =>
          have hne : v ≠ c'.1 := fun heq => hcounted ⟨c'.2, by rw [heq]⟩
          have hrow : (s.users.set c'.1 c'.2).row v = some c := hc
          rwa [Table.set_row_ne hne] at hrow
      have htouched : v ∈ s.touched ∨ start.Right v := by
        refine hv.imp_left fun hv => ?_
        rcases List.mem_append.1 hv with hv | hv
        · exact hv
        · exact absurd (by simpa using hv) hcounted
      exact (hs.right v htouched c hrow).trans hspares.counters.symm
  one := by
    intro i j r r' d hi hj hauthor hd hd'
    have hold : ∀ k x, (s.commit w counted).reviews.row k = some x → k < s.reviews.next →
        ∃ x₀, s.reviews.row k = some x₀ ∧ x.author_id = x₀.author_id ∧ x.deal_id = x₀.deal_id := by
      intro k x hk hlt
      obtain ⟨x₀, h₀, ha, -, hdeal⟩ := ReviewWrite.apply_row_old hlt hk
      exact ⟨x₀, h₀, ha, hdeal⟩
    -- a row that is new is the one inserted, and nobody had reviewed its deal
    have hnew : ∀ k x, (s.commit w counted).reviews.row k = some x → ¬ k < s.reviews.next → x.deal_id = some d →
        k = s.reviews.next ∧ s.reviewed x.author_id d = false := by
      intro k x hk hge hdeal
      cases w with
      | insert rv =>
        have hrow : (if k = s.reviews.next then some rv else s.reviews.row k) = some x := hk
        split at hrow
        · next heq =>
          cases hrow
          exact ⟨heq, (h.owned d hdeal).2⟩
        · exact absurd (Table.lt_next hrow) hge
      | edit k' rating text =>
        have hnext : (ReviewWrite.apply s.reviews (.edit k' rating text)).next = s.reviews.next := by
          simp only [ReviewWrite.apply]
          split <;> rfl
        exact absurd (hnext ▸ Table.lt_next hk) hge
      | delete k' => exact absurd (Table.lt_next (t := s.reviews.erase k') hk) hge
    have hclash : ∀ k x, s.reviews.row k = some x → x.deal_id = some d → s.reviewed x.author_id d = true := by
      intro k x hk hdeal
      refine decide_eq_true (List.ne_nil_of_mem (Table.mem_ids.2 ⟨x, hk, ?_⟩))
      simpa using hdeal
    by_cases hlt : i < s.reviews.next
    · obtain ⟨x, hx, hax, hdx⟩ := hold i r hi hlt
      by_cases hlt' : j < s.reviews.next
      · obtain ⟨y, hy, hay, hdy⟩ := hold j r' hj hlt'
        exact hs.one i j x y d hx hy (by rw [← hax, ← hay, hauthor]) (hdx ▸ hd) (hdy ▸ hd')
      · have hfree := (hnew j r' hj hlt' hd').2
        rw [← hauthor, hax, hclash i x hx (hdx ▸ hd)] at hfree
        cases hfree
    · by_cases hlt' : j < s.reviews.next
      · obtain ⟨y, hy, hay, hdy⟩ := hold j r' hj hlt'
        have hfree := (hnew i r hi hlt hd).2
        rw [hauthor, hay, hclash j y hy (hdy ▸ hd')] at hfree
        cases hfree
      · exact (hnew i r hi hlt hd).1.trans (hnew j r' hj hlt' hd').1.symm

/-- What a statement does: a commit ends the request, and any other one leaves
the store alone and the session knows what comes next. -/
theorem ReviewPc.knows_move {s : ReviewSys} {i : ℕ} {x y : Transactions.Session ReviewLock ReviewPc} {u : ReviewStore}
    (h : Moves ReviewPc.move s i x y u) (hx : x.pc.Knows s.store x.held) :
    (u = s.store ∧ y.pc.Knows s.store y.held) ∨
      (∃ w counted, CountedFor s.store x.held w counted ∧ u = s.store.commit w counted) ∧ y.pc = .finished := by
  obtain ⟨pc, held⟩ := x
  cases pc with
  | totp admin call =>
    obtain ⟨rfl, rfl⟩ := h.of_lock rfl
    exact .inl ⟨rfl, trivial⟩
  | post author_id target_id deal_id rating text =>
    obtain ⟨rfl, rfl⟩ := h.of_read rfl
    refine .inl ⟨rfl, ?_⟩
    simp only
    split
    · trivial
    · split <;> trivial
  | existing r d =>
    obtain ⟨rfl, rfl⟩ := h.of_read rfl
    refine .inl ⟨rfl, ?_⟩
    simp only
    split <;> trivial
  | endpoint admin call =>
    cases call with
    | create r =>
      obtain ⟨rfl, rfl⟩ := h.of_read rfl
      refine .inl ⟨rfl, ?_⟩
      simp only
      split <;> trivial
    | update k rating text =>
      obtain ⟨rfl, rfl⟩ := h.of_read rfl
      refine .inl ⟨rfl, ?_⟩
      simp only
      split
      · trivial
      · next r hr =>
        generalize (if r.rating = rating then none else some rating) = new_rating
        generalize (if r.text = text then none else some text) = new_text
        split
        · trivial
        · exact loaded_edit hr
    | delete k =>
      obtain ⟨rfl, rfl⟩ := h.of_read rfl
      refine .inl ⟨rfl, ?_⟩
      simp only
      split
      · trivial
      · next r hr => exact loaded_delete hr
  | insert admin r =>
    obtain ⟨author_id, target_id, deal_id, rating, text⟩ := r
    cases deal_id with
    | none =>
      obtain ⟨rfl, rfl⟩ := h.of_read rfl
      exact .inl ⟨rfl, nofun⟩
    | some d =>
      obtain ⟨rfl, rfl⟩ := h.of_lock rfl
      refine .inl ⟨rfl, fun d' hd => ?_⟩
      cases hd
      exact List.mem_cons_self
  | unique admin r =>
    obtain ⟨rfl, rfl⟩ := h.of_read rfl
    refine .inl ⟨rfl, ?_⟩
    simp only
    split
    · trivial
    · next hnone =>
      refine fun d hd => ⟨hx d hd, ?_⟩
      rw [hd, Option.any_some, Bool.not_eq_true] at hnone
      exact hnone
  | shareAuthor admin r =>
    obtain ⟨rfl, rfl⟩ := h.of_read rfl
    refine .inl ⟨rfl, ?_⟩
    simp only
    split
    · exact hx
    · trivial
  | shareTarget admin r =>
    obtain ⟨rfl, rfl⟩ := h.of_read rfl
    refine .inl ⟨rfl, ?_⟩
    simp only
    split
    · next hsome => exact ⟨hx, rfl, hsome⟩
    · trivial
  | auditDelete admin k target_id =>
    obtain ⟨rfl, rfl⟩ := h.of_read rfl
    refine .inl ⟨rfl, ?_⟩
    simp only
    split
    · exact hx
    · trivial
  | lockReview admin k w target_id =>
    obtain ⟨rfl, rfl⟩ := h.of_lock rfl
    exact .inl ⟨rfl, List.mem_cons_self, hx⟩
  | flushed admin k w target_id =>
    obtain ⟨rfl, rfl⟩ := h.of_read rfl
    obtain ⟨hheld, hloaded⟩ := hx
    have howned : w.Owned s.store held := hloaded.owned hheld
    refine .inl ⟨rfl, ?_⟩
    simp only
    split
    · trivial
    · split
      · next hnone =>
        suffices hcounted : CountedFor s.store held w none from hcounted.closing _
        refine ⟨howned, ?_⟩
        cases ht : target_id with
        | none => exact .inl (hloaded.quiet ht)
        | some t =>
          rw [ht, Option.filter_some, ite_eq_right_iff] at hnone
          refine .inr ⟨t, hloaded.about t ht, ?_⟩
          by_contra hrow
          cases hnone (Option.isSome_iff_ne_none.2 hrow)
      · next t ht =>
        obtain ⟨htarget, hsome⟩ := Option.filter_eq_some_iff.1 ht
        exact ⟨howned, hloaded.about t htarget, hsome⟩
  | lockTarget admin t w =>
    obtain ⟨rfl, rfl⟩ := h.of_lock rfl
    exact .inl ⟨rfl, List.mem_cons_self, (Ready.owned hx).locked, Ready.about hx, Ready.exists_ hx⟩
  | recount admin t w =>
    obtain ⟨rfl, rfl⟩ := h.of_read rfl
    have hcounted : CountedFor s.store held w (some (t, countersOf (w.apply s.store.reviews) t)) := ⟨hx.1, hx.2, rfl⟩
    exact .inl ⟨rfl, hcounted.closing admin⟩
  | audit admin w counted =>
    obtain ⟨rfl, rfl⟩ := h.of_read rfl
    refine .inl ⟨rfl, ?_⟩
    simp only
    split
    · exact hx
    · trivial
  | commit admin w counted =>
    obtain ⟨rfl, rfl⟩ := h.of_commit rfl
    exact .inr ⟨⟨w, counted, hx, rfl⟩, rfl⟩
  | finished => exact (h.of_done rfl).elim

end

/-! ## Sample -/

def sampleReviewedDeal (buyer_id seller_id : ℕ) : Deal :=
  { buyer_id, seller_id, status := .completed, confirm_buyer := true, confirm_seller := true, created_at := 0,
    completed_at := some 1, currency_id := 1, amount := ⟨1000000000, money_ten_fits⟩, commission_amount := none,
    in_progress_at := some 0, cancellation_initiator_id := none, cancellation_reason := none,
    cancellation_requested_at := none, arbitration_initiator_id := none, arbitration_reason := none,
    arbitration_resolved_by := none, arbitration_resolution := none, arbitration_resolved_at := none,
    payment_provider := "cryptobot", topup_deposit_id := none, commission_paid := true }

/-- Users 1 and 2 have each bought from user 3, and user 1 from user 2; user 4 is an admin. -/
def sampleReviews : ReviewStore where
  users := (((Table.empty.insert ⟨0, 0⟩).insert ⟨0, 0⟩).insert ⟨0, 0⟩).insert ⟨0, 0⟩
  reviews := .empty
  deals := ((Table.empty.insert (sampleReviewedDeal 1 3)).insert (sampleReviewedDeal 2 3)).insert (sampleReviewedDeal 1 2)
  touched := []

def sampleReview (author_id target_id deal_id : ℕ) : Review := ⟨author_id, target_id, some deal_id, 5, ""⟩

end Garant
