import Mathlib
/-!
# Journals of before and after values

A journal records moves of a value: each entry names the value before and the
value after. `Chain a es b` says that the entries follow on from each other,
starting at `a` and ending at `b`; appending an entry that starts where the
journal ends keeps it a chain.

`since` counts the entries that hit since the last one that resets; where it stays
below a number, no stretch without a reset has more hits than that (`countP_stretch`).
-/

namespace Journal
variable {α β : Type}

/-- The entries lead from `a` to `b`, each starting where the one before it ended. -/
def Chain (before after : β → α) : α → List β → α → Prop
  | a, [], b => a = b
  | a, e :: es, b => before e = a ∧ Chain before after (after e) es b

variable {before after : β → α} {a b : α} {es fs : List β}

theorem chain_append : Chain before after a (es ++ fs) b ↔ ∃ c, Chain before after a es c ∧ Chain before after c fs b := by
  induction es generalizing a with
  | nil => simp [Chain]
  | cons e es ih => simp [Chain, ih, and_assoc]

/-- An entry that starts at the end of the journal extends it. -/
theorem Chain.snoc (h : Chain before after a es b) {e : β} (he : before e = b) :
    Chain before after a (es ++ [e]) (after e) :=
  chain_append.2 ⟨b, h, he, rfl⟩

/-- The end is the last entry's after value, or the start if there is none. -/
theorem Chain.end_eq (h : Chain before after a es b) : b = (es.getLast?.map after).getD a := by
  rcases es.eq_nil_or_concat with rfl | ⟨es', e, rfl⟩
  · exact h.symm
  · rw [List.concat_eq_append] at h ⊢
    obtain ⟨c, -, -, he⟩ := chain_append.1 h
    simpa using he.symm

/-! ## Counting since a reset -/

section
variable {hit reset : β → Bool} {e : β} {n : ℕ}

/-- The hits since the last entry that resets. -/
def since (hit reset : β → Bool) (es : List β) : ℕ :=
  es.foldl (fun n e => if reset e then 0 else if hit e then n + 1 else n) 0

theorem since_concat : since hit reset (es ++ [e]) =
    if reset e then 0 else if hit e then since hit reset es + 1 else since hit reset es := by
  rw [since, List.foldl_append, ← since]
  rfl

variable (es) in
/-- The hits of a stretch in which nothing resets are all counted. -/
theorem countP_le_since (h : ∀ e ∈ fs, reset e = false) : fs.countP hit ≤ since hit reset (es ++ fs) := by
  induction fs using List.reverseRecOn with
  | nil => exact Nat.zero_le _
  | append_singleton fs e ih =>
    have hprev := ih fun f hf => h f (List.mem_append_left _ hf)
    rw [← List.append_assoc, since_concat, h e (by simp), List.countP_append, List.countP_singleton]
    by_cases he : hit e = true <;> simp [he, hprev]

variable (reset es) in
/-- Of a stretch only the last entry of which may reset, no more than `n` hit. -/
theorem countP_stretch (hn : ∀ p, p <+: es ++ fs → since hit reset p < n) (h : ∀ e ∈ fs.dropLast, reset e = false) :
    fs.countP hit ≤ n := by
  rcases fs.eq_nil_or_concat with rfl | ⟨init, e, rfl⟩
  · exact Nat.zero_le _
  · rw [List.concat_eq_append] at hn h ⊢
    rw [List.dropLast_concat] at h
    have hinit := (countP_le_since es h).trans_lt (hn (es ++ init) ⟨[e], by rw [List.append_assoc]⟩)
    have hlast : [e].countP hit ≤ 1 := List.countP_le_length
    rw [List.countP_append]
    omega

end

end Journal
