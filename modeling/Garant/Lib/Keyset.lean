import Mathlib
/-!
# Keyset pages

A page is the first `limit` keys, greatest first, below the last key of the page
before. Between two pages the keys may change. `Scan.Exact` is what every scan
keeps: what it has seen falls strictly, and no key that stayed in place has been
passed over; `Scan.Exact.next` is the step lemma. `scan_times` is the scan of keys
that do not change.
-/

namespace Keyset
variable {κ : Type} [LinearOrder κ]

/-- The greatest `limit` keys below the cursor, greatest first. -/
def page (keys : List κ) (before : Option κ) (limit : ℕ) : List κ :=
  ((keys.filter fun k => before.all (k < ·)).insertionSort (· ≥ ·)).take limit

/-- What a client has: the pages so far, and whether the last one was short. -/
structure Scan (κ : Type) where
  seen : List κ
  short : Bool

namespace Scan

def start : Scan κ := ⟨[], false⟩

/-- One more page, from the last key seen. -/
def next (keys : List κ) (limit : ℕ) (s : Scan κ) : Scan κ :=
  let p := page keys s.seen.getLast? limit
  ⟨s.seen ++ p, p.length < limit⟩

/-- A scan that has not lost a key of `stable`, and has lost none for good once a page was short. -/
structure Exact (stable : κ → Prop) (s : Scan κ) : Prop where
  desc : s.seen.Pairwise (· > ·)
  ahead : ∀ k, stable k → k ∈ s.seen ∨ ∀ x ∈ s.seen, k < x
  complete : s.short = true → ∀ k, stable k → k ∈ s.seen

end Scan

section
variable {keys : List κ} {before : Option κ} {limit : ℕ} {k x : κ}

/-- Sorted keys without repetition fall strictly. -/
theorem desc_sort (h : keys.Nodup) : (keys.insertionSort (· ≥ ·)).Pairwise (· > ·) := by
  have hge : (keys.insertionSort (· ≥ ·)).Pairwise (· ≥ ·) := List.pairwise_insertionSort _ keys
  have hne : (keys.insertionSort (· ≥ ·)).Pairwise (· ≠ ·) := (List.perm_insertionSort _ keys).nodup_iff.2 h
  refine (hge.and hne).imp ?_
  rintro a b ⟨hab, hab'⟩
  exact lt_of_le_of_ne hab (Ne.symm hab')

theorem mem_page (h : k ∈ page keys before limit) : k ∈ keys ∧ ∀ c ∈ before, k < c := by
  have hmem := (List.mem_insertionSort _).1 (List.mem_of_mem_take h)
  rw [List.mem_filter] at hmem
  refine ⟨hmem.1, ?_⟩
  rintro c rfl
  simpa using hmem.2

theorem desc_page (h : keys.Nodup) : (page keys before limit).Pairwise (· > ·) :=
  (desc_sort (h.filter _)).sublist (List.take_sublist _ _)

/-- A key below the cursor that a page leaves out lies below the page, and the page is full. -/
theorem page_stops (h : keys.Nodup) (hk : k ∈ keys) (hbefore : ∀ c ∈ before, k < c) (hout : k ∉ page keys before limit) :
    (∀ x ∈ page keys before limit, k < x) ∧ (page keys before limit).length = limit := by
  unfold page at hout ⊢
  generalize hl : (keys.filter fun k => before.all (k < ·)).insertionSort (· ≥ ·) = l at hout ⊢
  have hkl : k ∈ l := by
    rw [← hl, List.mem_insertionSort, List.mem_filter]
    refine ⟨hk, ?_⟩
    cases before with
    | none => rfl
    | some c => simpa using hbefore c rfl
  have hdesc : l.Pairwise (· > ·) := hl ▸ desc_sort (h.filter _)
  have hdrop : k ∈ l.drop limit := by
    rw [← List.take_append_drop limit l, List.mem_append] at hkl
    exact hkl.resolve_left hout
  rw [← List.take_append_drop limit l, List.pairwise_append] at hdesc
  have hlong : limit < l.length := by
    by_contra hle
    rw [List.drop_eq_nil_of_le (by omega)] at hdrop
    cases hdrop
  exact ⟨fun x hx => hdesc.2.2 x hx k hdrop, by rw [List.length_take]; omega⟩

end

/-! ## Scans -/

namespace Scan
variable {stable stable' : κ → Prop} {keys : List κ} {limit : ℕ} {s : Scan κ} {k x : κ}

theorem exact_start : (start : Scan κ).Exact stable where
  desc := .nil
  ahead _ _ := .inr (by simp [start])
  complete h := by cases h

theorem Exact.mono (h : s.Exact stable) (hs : ∀ k, stable' k → stable k) : s.Exact stable' where
  desc := h.desc
  ahead k hk := h.ahead k (hs k hk)
  complete hshort k hk := h.complete hshort k (hs k hk)

/-- What lies below the last key seen lies below all of them. -/
theorem Exact.lt_of_last (h : s.Exact stable) (hk : ∀ c ∈ s.seen.getLast?, k < c) (hx : x ∈ s.seen) : k < x := by
  obtain ⟨l, c, hl⟩ : ∃ l c, s.seen = l ++ [c] := ⟨_, _, (List.dropLast_append_getLast (List.ne_nil_of_mem hx)).symm⟩
  have hc : k < c := hk c (by rw [hl, List.getLast?_concat]; rfl)
  have hdesc := h.desc
  rw [hl, List.pairwise_append] at hdesc
  rw [hl, List.mem_append, List.mem_singleton] at hx
  rcases hx with hx | rfl
  · exact hc.trans (hdesc.2.2 x hx c (List.mem_singleton.2 rfl))
  · exact hc

theorem Exact.next (h : s.Exact stable) (hn : keys.Nodup) (hkeys : ∀ k, stable k → k ∈ keys) :
    (s.next keys limit).Exact stable := by
  have hbelow : ∀ k ∈ page keys s.seen.getLast? limit, ∀ x ∈ s.seen, k < x := fun k hk x hx =>
    h.lt_of_last (mem_page hk).2 hx
  -- a key that stayed is seen already, on this page, or below the page; then the page is full
  have hstable : ∀ k, stable k → k ∈ s.seen ++ page keys s.seen.getLast? limit ∨
      ((∀ x ∈ s.seen ++ page keys s.seen.getLast? limit, k < x) ∧ (page keys s.seen.getLast? limit).length = limit) := by
    intro k hk
    by_cases hpage : k ∈ page keys s.seen.getLast? limit
    · exact .inl (List.mem_append_right _ hpage)
    rcases h.ahead k hk with hseen | hlt
    · exact .inl (List.mem_append_left _ hseen)
    · obtain ⟨hstop, hfull⟩ := page_stops hn (hkeys k hk) (fun c hc => hlt c (List.mem_of_getLast? hc)) hpage
      refine .inr ⟨fun x hx => ?_, hfull⟩
      rcases List.mem_append.1 hx with hx | hx
      · exact hlt x hx
      · exact hstop x hx
  exact {
    desc := List.pairwise_append.2 ⟨h.desc, desc_page hn, fun x hx k hk => hbelow k hk x hx⟩
    ahead := fun k hk => (hstable k hk).imp_right And.left
    complete := fun hshort k hk => (hstable k hk).resolve_right fun hfull => by
      have hlt : (page keys s.seen.getLast? limit).length < limit := of_decide_eq_true hshort
      omega }

/-! ## Keys that do not change -/

theorem sort_filter (p : κ → Bool) :
    (keys.filter p).insertionSort (· ≥ ·) = (keys.insertionSort (· ≥ ·)).filter p := by
  refine List.Perm.eq_of_pairwise' (r := (· ≥ ·)) (List.pairwise_insertionSort _ _)
    ((List.pairwise_insertionSort _ _).filter _) ?_
  exact (List.perm_insertionSort _ _).trans ((List.perm_insertionSort _ keys).filter p).symm

/-- The keys below the last of the first `n` are the keys after them. -/
theorem page_take (hn : keys.Nodup) (n : ℕ) :
    page keys ((keys.insertionSort (· ≥ ·)).take n).getLast? limit = ((keys.insertionSort (· ≥ ·)).drop n).take limit := by
  have hdesc := desc_sort hn
  rw [page, sort_filter]
  generalize keys.insertionSort (· ≥ ·) = l at hdesc ⊢
  rw [← List.take_append_drop n l, List.pairwise_append] at hdesc
  congr 1
  rcases List.eq_nil_or_concat (l.take n) with hnil | ⟨m, c, hc⟩
  · rw [hnil, List.getLast?_nil]
    rcases List.take_eq_nil_iff.1 hnil with rfl | rfl <;> simp
  · rw [List.concat_eq_append] at hc
    have hbefore : (l.take n).filter (fun k => ((l.take n).getLast?).all (k < ·)) = [] := by
      rw [List.filter_eq_nil_iff]
      intro k hk
      rw [hc] at hk hdesc ⊢
      rw [List.getLast?_concat]
      rcases List.mem_append.1 hk with hk | hk
      · have hgt : k > c := (List.pairwise_append.1 hdesc.1).2.2 k hk c (List.mem_singleton.2 rfl)
        simpa using hgt.le
      · simp [List.mem_singleton.1 hk]
    have hafter : (l.drop n).filter (fun k => ((l.take n).getLast?).all (k < ·)) = l.drop n := by
      rw [List.filter_eq_self]
      intro k hk
      rw [hc, List.getLast?_concat]
      have hlast : c ∈ l.take n := by simp [hc]
      simpa using hdesc.2.2 c hlast k hk
    conv_lhs => rw [← List.take_append_drop n l, List.filter_append]
    rw [List.take_append_drop, hbefore, hafter, List.nil_append]

/-- A number of pages of the same keys, one after another. -/
def times (keys : List κ) (limit : ℕ) : ℕ → Scan κ
  | 0 => start
  | n + 1 => (times keys limit n).next keys limit

theorem seen_times (hn : keys.Nodup) (n : ℕ) :
    (times keys limit n).seen = (keys.insertionSort (· ≥ ·)).take (n * limit) := by
  induction n with
  | zero => simp [times, start]
  | succ n ih => rw [times, next, ih, page_take hn, Nat.succ_mul, List.take_add]

/-- The scan of keys that stay the same ends, and then has them all. -/
theorem scan_times (hn : keys.Nodup) (hlimit : 0 < limit) :
    times keys limit (keys.length / limit + 1) = ⟨keys.insertionSort (· ≥ ·), true⟩ := by
  have hlen : (keys.insertionSort (· ≥ ·)).length = keys.length := List.length_insertionSort _ _
  have hdiv := Nat.div_add_mod' keys.length limit
  have hmod := Nat.mod_lt keys.length hlimit
  have hlast : page keys ((times keys limit (keys.length / limit)).seen.getLast?) limit =
      (keys.insertionSort (· ≥ ·)).drop (keys.length / limit * limit) := by
    rw [seen_times hn, page_take hn, List.take_of_length_le]
    rw [List.length_drop, hlen]
    omega
  rw [times, next, hlast, seen_times hn, List.take_append_drop, List.length_drop, hlen]
  have hshort : keys.length - keys.length / limit * limit < limit := by omega
  rw [decide_eq_true hshort]

end Scan
end Keyset
