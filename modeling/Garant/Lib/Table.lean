import Mathlib
/-!
# Tables with generated keys

A table maps keys to rows and remembers the next key to hand out; no row sits
at or past it. Rows are inserted, replaced and deleted by key. `sum` adds a
weight over all rows, and the lemmas say how each change moves it, so a fact
about a total is a fact about the one row that changed.
-/

/-- Rows by key, with the next free key. -/
structure Table (α : Type) where
  row : ℕ → Option α
  next : ℕ
  fresh : ∀ i, next ≤ i → row i = none

namespace Table
variable {α : Type} {t : Table α} {i j : ℕ} {r r' : α}

/-- The empty table; keys start at one. -/
def empty : Table α := ⟨fun _ => none, 1, fun _ _ => rfl⟩

/-- Adds a row under the next key. -/
def insert (t : Table α) (r : α) : Table α where
  row i := if i = t.next then some r else t.row i
  next := t.next + 1
  fresh i h := by
    rw [if_neg (by omega)]
    exact t.fresh i (by omega)

/-- Replaces the row at `i`; there is nothing to replace where no row is. -/
def set (t : Table α) (i : ℕ) (r : α) : Table α where
  row j := if j = i then (t.row i).map fun _ => r else t.row j
  next := t.next
  fresh j h := by
    split
    · subst j
      rw [t.fresh i h, Option.map_none]
    · exact t.fresh j h

/-- Deletes the row at `i`. -/
def erase (t : Table α) (i : ℕ) : Table α where
  row j := if j = i then none else t.row j
  next := t.next
  fresh j h := by
    split
    · rfl
    · exact t.fresh j h

/-- Changes every row, by key. -/
def mapRows (t : Table α) (f : ℕ → α → α) : Table α where
  row i := (t.row i).map (f i)
  next := t.next
  fresh i h := by rw [t.fresh i h, Option.map_none]

/-- The keys of the rows that satisfy `p`, in key order. -/
def ids (t : Table α) (p : α → Bool) : List ℕ := (List.range t.next).filter fun i => (t.row i).any p

@[simp] theorem empty_row (i : ℕ) : (empty : Table α).row i = none := rfl

theorem lt_next (h : t.row i = some r) : i < t.next := by
  by_contra hi
  rw [t.fresh i (not_lt.1 hi)] at h
  cases h

@[simp] theorem insert_row : (t.insert r).row i = if i = t.next then some r else t.row i := rfl

theorem set_row (h : t.row i = some r) : (t.set i r').row j = if j = i then some r' else t.row j := by
  show (if j = i then (t.row i).map _ else _) = _
  rw [h, Option.map_some]

theorem set_row_ne (h : j ≠ i) : (t.set i r').row j = t.row j := if_neg h

/-- A row after a replacement is the new one or an old one. -/
theorem row_of_set (h : (t.set i r').row j = some r) : r = r' ∨ t.row j = some r := by
  by_cases hj : j = i
  · subst hj
    simp only [set, if_true] at h
    obtain ⟨-, -, rfl⟩ := Option.map_eq_some_iff.1 h
    exact .inl rfl
  · rw [set_row_ne hj] at h
    exact .inr h

theorem row_of_insert (h : (t.insert r').row j = some r) : r = r' ∨ t.row j = some r := by
  rw [insert_row] at h
  split at h
  · cases h
    exact .inl rfl
  · exact .inr h

@[simp] theorem erase_row : (t.erase i).row j = if j = i then none else t.row j := rfl

@[simp] theorem mapRows_row (f : ℕ → α → α) : (t.mapRows f).row i = (t.row i).map (f i) := rfl

@[ext] theorem ext {t t' : Table α} (h : t.row = t'.row) (hn : t.next = t'.next) : t = t' := by
  cases t
  cases t'
  simp only at h hn
  subst h hn
  rfl

/-- Deletes the rows at the keys. -/
def eraseAll (t : Table α) (is : List ℕ) : Table α := is.foldl erase t

@[simp] theorem eraseAll_row (is : List ℕ) : (t.eraseAll is).row i = if i ∈ is then none else t.row i := by
  induction is generalizing t with
  | nil => simp [eraseAll]
  | cons j is ih =>
    rw [eraseAll, List.foldl_cons, ← eraseAll, ih, erase_row]
    by_cases hi : i ∈ is <;> by_cases hj : i = j <;> simp [hi, hj]

@[simp] theorem eraseAll_next (is : List ℕ) : (t.eraseAll is).next = t.next := by
  induction is generalizing t with
  | nil => rfl
  | cons j is ih => exact ih (t := t.erase j)

/-- Replacing the row just added is adding the other row. -/
theorem set_insert : (t.insert r).set t.next r' = t.insert r' := by
  ext j : 2
  · rw [set_row (r := r) (by simp), insert_row, insert_row]
    split <;> rfl
  · rfl

theorem mem_ids {p : α → Bool} : i ∈ t.ids p ↔ ∃ r, t.row i = some r ∧ p r := by
  rw [ids, List.mem_filter, List.mem_range, Option.any_eq_true]
  constructor
  · rintro ⟨-, r, hr, hp⟩
    exact ⟨r, hr, hp⟩
  · rintro ⟨r, hr, hp⟩
    exact ⟨lt_next hr, r, hr, hp⟩

theorem ids_eq_nil {p : α → Bool} : t.ids p = [] ↔ ∀ i r, t.row i = some r → p r = false := by
  rw [List.eq_nil_iff_forall_not_mem]
  constructor
  · intro h i r hr
    by_contra hp
    exact h i (mem_ids.2 ⟨r, hr, by simpa using hp⟩)
  · intro h i hi
    obtain ⟨r, hr, hp⟩ := mem_ids.1 hi
    rw [h i r hr] at hp
    cases hp

theorem ids_insert_nil {p : α → Bool} (h : t.ids p = []) (hr : p r = false) : (t.insert r).ids p = [] := by
  rw [ids_eq_nil] at h ⊢
  intro i r' hi
  rw [insert_row] at hi
  split at hi
  · cases hi
    exact hr
  · exact h i r' hi

theorem ids_eraseAll_nil {p : α → Bool} (is : List ℕ) (h : t.ids p = []) : (t.eraseAll is).ids p = [] := by
  rw [ids_eq_nil] at h ⊢
  intro i r' hi
  rw [eraseAll_row] at hi
  split at hi
  · cases hi
  · exact h i r' hi

theorem ids_mapRows_nil {p : α → Bool} {f : ℕ → α → α} (h : t.ids p = [])
    (hf : ∀ i r, t.row i = some r → p r = false → p (f i r) = false) : (t.mapRows f).ids p = [] := by
  rw [ids_eq_nil] at h ⊢
  intro i r' hi
  rw [mapRows_row] at hi
  obtain ⟨r, hr, rfl⟩ := Option.map_eq_some_iff.1 hi
  exact hf i r hr (h i r hr)

theorem nodup_ids (p : α → Bool) : (t.ids p).Nodup := List.nodup_range.filter _

/-- The rows with their keys, in key order. -/
def entries (t : Table α) : List (ℕ × α) := (List.range t.next).filterMap fun i => (t.row i).map (i, ·)

theorem mem_entries {e : ℕ × α} : e ∈ t.entries ↔ t.row e.1 = some e.2 := by
  obtain ⟨i, r⟩ := e
  simp only [entries, List.mem_filterMap, List.mem_range, Option.map_eq_some_iff, Prod.mk.injEq]
  constructor
  · rintro ⟨j, -, r', hr, rfl, rfl⟩
    exact hr
  · intro hr
    exact ⟨i, lt_next hr, r, hr, rfl, rfl⟩

theorem filter_entries (p : α → Bool) : (t.entries.filter fun e => p e.2).map Prod.fst = t.ids p := by
  rw [entries, ids, List.filter_filterMap, List.map_filterMap, ← List.filterMap_eq_filter]
  refine List.filterMap_congr fun i _ => ?_
  cases h : t.row i with
  | none => simp [h, Option.guard]
  | some r => by_cases hp : p r <;> simp [h, hp, Option.guard]

theorem nodup_entries : (t.entries.map Prod.fst).Nodup := by
  have h := filter_entries (t := t) fun _ => true
  rw [List.filter_eq_self.2 fun _ _ => rfl] at h
  rw [h]
  exact nodup_ids _

/-! ## Keys that are gone -/

/-- Keys are handed out in order, and a deleted one never again. -/
structure Onward (t t' : Table α) : Prop where
  next : t.next ≤ t'.next
  gone : ∀ i, i < t.next → t.row i = none → t'.row i = none

theorem Onward.refl (t : Table α) : t.Onward t := ⟨le_rfl, fun _ _ h => h⟩

theorem Onward.trans {t' t'' : Table α} (h : t.Onward t') (h' : t'.Onward t'') : t.Onward t'' :=
  ⟨h.next.trans h'.next, fun i hi hn => h'.gone i (hi.trans_le h.next) (h.gone i hi hn)⟩

theorem onward_insert : t.Onward (t.insert r) := by
  refine ⟨Nat.le_succ _, ?_⟩
  intro i hi hn
  rw [insert_row, if_neg hi.ne, hn]

theorem onward_set : t.Onward (t.set i r) := by
  refine ⟨le_rfl, ?_⟩
  intro j _ hn
  by_cases hj : j = i
  · subst hj
    show (if j = j then (t.row j).map _ else _) = none
    rw [if_pos rfl, hn, Option.map_none]
  · rw [set_row_ne hj, hn]

theorem onward_erase : t.Onward (t.erase i) := by
  refine ⟨le_rfl, ?_⟩
  intro j _ hn
  rw [erase_row, hn, ite_self]

/-- Rows come under new keys and go; a row that stays is related to the one before. -/
structure Evolves (R : α → α → Prop) (t t' : Table α) : Prop where
  next : t.next ≤ t'.next
  row : ∀ i r', i < t.next → t'.row i = some r' → ∃ r, t.row i = some r ∧ R r r'

section
variable {R : α → α → Prop}

theorem Evolves.refl (hR : ∀ r, R r r) (t : Table α) : t.Evolves R t := ⟨le_rfl, fun _ r' _ h => ⟨r', h, hR r'⟩⟩

theorem Evolves.trans {t' t'' : Table α} (hR : ∀ r r' r'', R r r' → R r' r'' → R r r'') (h : t.Evolves R t')
    (h' : t'.Evolves R t'') : t.Evolves R t'' := by
  refine ⟨h.next.trans h'.next, ?_⟩
  intro i r'' hi hr''
  obtain ⟨r', hr', hrel'⟩ := h'.row i r'' (hi.trans_le h.next) hr''
  obtain ⟨r, hr, hrel⟩ := h.row i r' hi hr'
  exact ⟨r, hr, hR r r' r'' hrel hrel'⟩

theorem evolves_insert (hR : ∀ r, R r r) : t.Evolves R (t.insert r) := by
  refine ⟨Nat.le_succ _, ?_⟩
  intro i r' hi hr'
  rw [insert_row, if_neg hi.ne] at hr'
  exact ⟨r', hr', hR r'⟩

theorem evolves_mapRows {f : ℕ → α → α} (hf : ∀ i r, R r (f i r)) : t.Evolves R (t.mapRows f) := by
  refine ⟨le_rfl, ?_⟩
  intro i r' _ hr'
  rw [mapRows_row] at hr'
  obtain ⟨r, hr, rfl⟩ := Option.map_eq_some_iff.1 hr'
  exact ⟨r, hr, hf i r⟩

theorem evolves_set (hR : ∀ r, R r r) (h : t.row i = some r) (hr : R r r') : t.Evolves R (t.set i r') := by
  refine ⟨le_rfl, ?_⟩
  intro j x _ hx
  rw [set_row h] at hx
  split at hx
  · subst j
    cases hx
    exact ⟨r, h, hr⟩
  · exact ⟨x, hx, hR x⟩

theorem evolves_eraseAll (hR : ∀ r, R r r) (is : List ℕ) : t.Evolves R (t.eraseAll is) := by
  refine ⟨(eraseAll_next is).ge, ?_⟩
  intro i r' _ hr'
  rw [eraseAll_row] at hr'
  split at hr'
  · cases hr'
  · exact ⟨r', hr', hR r'⟩

end

/-! ## Counting rows -/

/-- The number of rows that satisfy `p`. -/
def count (t : Table α) (p : α → Bool) : ℕ := (t.ids p).length

theorem count_eq_length {p : α → Bool} : t.count p = (t.entries.filter fun e => p e.2).length := by
  rw [count, ← filter_entries, List.length_map]

/-- The count looks at the rows only. -/
theorem count_congr {t' : Table α} {p : α → Bool} (h : ∀ i, (t.row i).any p = (t'.row i).any p) : t.count p = t'.count p := by
  refine List.Perm.length_eq ((List.perm_ext_iff_of_nodup (nodup_ids p) (nodup_ids p)).2 fun i => ?_)
  rw [mem_ids, mem_ids, ← Option.any_eq_true, ← Option.any_eq_true, h i]

theorem count_insert {p : α → Bool} : (t.insert r).count p = t.count p + if p r then 1 else 0 := by
  have hold : (List.range t.next).filter (fun i => ((t.insert r).row i).any p) =
      (List.range t.next).filter fun i => (t.row i).any p := by
    refine List.filter_congr fun i hi => ?_
    rw [insert_row, if_neg (List.mem_range.1 hi).ne]
  rw [count, ids, show (t.insert r).next = t.next + 1 from rfl, List.range_succ, List.filter_append, hold,
    List.length_append, ← ids, ← count]
  congr 1
  by_cases hp : p r <;> simp [hp]

/-- Where no row but one is new to `p`, at most one more satisfies it. -/
theorem count_le_succ {t' : Table α} {p : α → Bool} (h : ∀ j, j ≠ i → (t'.row j).any p → (t.row j).any p) :
    t'.count p ≤ t.count p + 1 := by
  have hsub : t'.ids p ⊆ i :: t.ids p := by
    intro j hj
    rw [mem_ids, ← Option.any_eq_true] at hj
    by_cases hi : j = i
    · exact List.mem_cons.2 (.inl hi)
    · refine List.mem_cons_of_mem _ ?_
      rw [mem_ids, ← Option.any_eq_true]
      exact h j hi hj
  exact (List.subperm_of_subset (nodup_ids p) hsub).length_le

theorem count_le {t' : Table α} {p : α → Bool} (h : ∀ j, (t'.row j).any p → (t.row j).any p) : t'.count p ≤ t.count p := by
  refine (List.subperm_of_subset (nodup_ids p) fun j hj => ?_).length_le
  rw [mem_ids, ← Option.any_eq_true] at hj ⊢
  exact h j hj

/-! ## Sums over the rows -/

/-- The total weight of the rows. -/
def sum (t : Table α) (f : α → ℚ) : ℚ := ∑ i ∈ Finset.range t.next, (t.row i).elim 0 f

variable {f : α → ℚ}

@[simp] theorem sum_empty : (empty : Table α).sum f = 0 := by simp [sum]

@[simp] theorem sum_insert : (t.insert r).sum f = t.sum f + f r := by
  rw [sum, show (t.insert r).next = t.next + 1 from rfl, Finset.sum_range_succ]
  congr 1
  · refine Finset.sum_congr rfl fun i hi => ?_
    rw [insert_row, if_neg (Finset.mem_range.1 hi).ne]
  · simp

/-- Moving one row moves the total by the difference of its weights. -/
theorem sum_eq_of_row {t' : Table α} (hn : t'.next = t.next) (hi : i < t.next) (h : ∀ j, j ≠ i → t'.row j = t.row j) :
    t'.sum f = t.sum f - (t.row i).elim 0 f + (t'.row i).elim 0 f := by
  have hm : i ∈ Finset.range t.next := Finset.mem_range.2 hi
  rw [sum, sum, hn, ← Finset.add_sum_erase _ _ hm, ← Finset.add_sum_erase _ (fun j => (t.row j).elim 0 f) hm]
  rw [Finset.sum_congr rfl fun j hj => by rw [h j (Finset.ne_of_mem_erase hj)]]
  ring

theorem sum_set (h : t.row i = some r) : (t.set i r').sum f = t.sum f - f r + f r' := by
  have hs := sum_eq_of_row (f := f) (show (t.set i r').next = t.next from rfl) (lt_next h) fun j hj => set_row_ne hj
  rw [hs, set_row h, h]
  simp

theorem sum_erase (h : t.row i = some r) : (t.erase i).sum f = t.sum f - f r := by
  have hs := sum_eq_of_row (f := f) (show (t.erase i).next = t.next from rfl) (lt_next h) fun j hj => by
    rw [erase_row, if_neg hj]
  rw [hs, h]
  simp

/-- With no negative weights, no row weighs more than the total. -/
theorem le_sum (hf : ∀ i r, t.row i = some r → 0 ≤ f r) (h : t.row i = some r) : f r ≤ t.sum f := by
  have := Finset.single_le_sum (f := fun j => (t.row j).elim 0 f) (s := Finset.range t.next)
    (fun j _ => by
      cases hr : t.row j with
      | none => simp
      | some r => simpa using hf j r hr)
    (Finset.mem_range.2 (lt_next h))
  rw [h] at this
  exact this

theorem sum_nonneg (hf : ∀ i r, t.row i = some r → 0 ≤ f r) : 0 ≤ t.sum f :=
  Finset.sum_nonneg fun j _ => by
    cases hr : t.row j with
    | none => simp
    | some r => simpa using hf j r hr

end Table
