import Mathlib
/-!
# Runs of labelled steps

`Reach step Ok s t`: some run from `s` ends in `t`, and every step of it was
taken in a state that meets `Ok` for its label. With `Ok` always true these
are all runs. `Reach.invariant` is the one induction over runs the rest uses.
A machine that answers each input has a transcript; `transcript_eq` compares two.
-/

section
variable {σ α : Type}

/-- The states reached from `s` by steps that all meet `Ok`. -/
inductive Reach (step : α → σ → σ → Prop) (Ok : α → σ → Prop) (s : σ) : σ → Prop
  | refl : Reach step Ok s s
  | step {t u : σ} {a : α} : Reach step Ok s t → Ok a t → step a t u → Reach step Ok s u

/-- No condition on the steps. -/
def Free (_ : α) (_ : σ) : Prop := True

namespace Reach
variable {step : α → σ → σ → Prop} {Ok : α → σ → Prop} {s t u : σ}

/-- What holds at the start and is kept by every admitted step holds everywhere. -/
theorem invariant {I : σ → Prop} (h : Reach step Ok s t) (h0 : I s)
    (hs : ∀ a t u, I t → Ok a t → step a t u → I u) : I t := by
  induction h with
  | refl => exact h0
  | step _ hok ht ih => exact hs _ _ _ ih hok ht

theorem trans (h : Reach step Ok s t) (h' : Reach step Ok t u) : Reach step Ok s u := by
  induction h' with
  | refl => exact h
  | step _ hok ht ih => exact .step ih hok ht

/-- What holds in every state reached may be used at every step. -/
theorem with_invariant {I : σ → Prop} (h : Reach step Ok s t) (hI : ∀ u, Reach step Ok s u → I u) :
    Reach step (fun a u => Ok a u ∧ I u) s t := by
  induction h with
  | refl => exact .refl
  | step hr hok ht ih => exact .step ih ⟨hok, hI _ hr⟩ ht

/-- A condition on the steps may be counted among what a step is. -/
theorem guarded {G : α → σ → Prop} (h : Reach step (fun a s => Ok a s ∧ G a s) s t) :
    Reach (fun a s t => step a s t ∧ G a s) Ok s t := by
  induction h with
  | refl => exact .refl
  | step _ hok ht ih => exact .step ih hok.1 ⟨ht, hok.2⟩

/-- A list of steps that all go through is a run. `I` is what the steps keep and `Ok` needs. -/
theorem of_foldlM {ε : Type} {exec : σ → α → Except ε σ} {I : σ → Prop} {as : List α}
    (h : as.foldlM exec s = .ok t) (h0 : I s) (hI : ∀ a s t, I s → exec s a = .ok t → I t)
    (hok : ∀ a ∈ as, ∀ s, I s → Ok a s) : Reach (fun a s t => exec s a = .ok t) Ok s t := by
  induction as generalizing s with
  | nil =>
    cases h
    exact .refl
  | cons a as ih =>
    rw [List.foldlM_cons] at h
    cases ha : exec s a with
    | error e =>
      rw [ha] at h
      cases h
    | ok u =>
      rw [ha] at h
      have hfirst : Reach (fun a s t => exec s a = .ok t) Ok s u := .step .refl (hok a List.mem_cons_self s h0) ha
      exact hfirst.trans (ih h (hI a s u h0 ha) fun b hb => hok b (List.mem_cons_of_mem _ hb))

/-- A list of steps whose last state passes a check is a run to such a state. -/
theorem of_check {ε : Type} {p : σ → Prop} [DecidablePred p] (exec : σ → α → Except ε σ) (as : List α) (I : σ → Prop)
    (h : (as.foldlM exec s).toOption.any (fun t => decide (p t)) = true) (h0 : I s)
    (hI : ∀ a s t, I s → exec s a = .ok t → I t) (hok : ∀ a ∈ as, ∀ s, I s → Ok a s) :
    ∃ t, Reach (fun a s t => exec s a = .ok t) Ok s t ∧ p t := by
  cases hr : as.foldlM exec s with
  | error e =>
    rw [hr] at h
    cases h
  | ok t =>
    rw [hr] at h
    exact ⟨t, of_foldlM hr h0 hI hok, of_decide_eq_true h⟩

/-- The same with no condition on the steps. -/
theorem free_of_check {ε : Type} {p : σ → Prop} [DecidablePred p] (exec : σ → α → Except ε σ) (as : List α)
    (h : (as.foldlM exec s).toOption.any (fun t => decide (p t)) = true) :
    ∃ t, Reach (fun a s t => exec s a = .ok t) Free s t ∧ p t :=
  of_check exec as (fun _ => True) h trivial (fun _ _ _ _ _ => trivial) fun _ _ _ _ => trivial

/-- A list of steps that are possible, and meet the condition where they are taken. -/
theorem checked_of_some {p : σ → Prop} [DecidablePred p] [∀ a s, Decidable (Ok a s)] (exec : σ → α → Option σ)
    (as : List α) (h : (as.foldlM (fun s a => if Ok a s then exec s a else none) s).any (fun t => decide (p t)) = true) :
    ∃ t, Reach (fun a s t => exec s a = some t) Ok s t ∧ p t := by
  induction as generalizing s with
  | nil => exact ⟨s, .refl, by simpa using h⟩
  | cons a as ih =>
    rw [List.foldlM_cons] at h
    by_cases hok : Ok a s
    · rw [if_pos hok] at h
      cases ha : exec s a with
      | none =>
        rw [ha] at h
        cases h
      | some u =>
        rw [ha] at h
        have hfirst : Reach (fun a s t => exec s a = some t) Ok s u := .step .refl hok ha
        obtain ⟨t, hrest, ht⟩ := ih h
        exact ⟨t, hfirst.trans hrest, ht⟩
    · rw [if_neg hok] at h
      cases h

/-- The same with no condition on the steps. -/
theorem free_of_some {p : σ → Prop} [DecidablePred p] (exec : σ → α → Option σ) (as : List α)
    (h : (as.foldlM exec s).any (fun t => decide (p t)) = true) :
    ∃ t, Reach (fun a s t => exec s a = some t) Free s t ∧ p t := by
  have : ∀ (a : α) (s : σ), Decidable (Free a s) := fun _ _ => .isTrue trivial
  have hexec : (fun s a => if Free a s then exec s a else none) = exec := by
    funext s a
    exact if_pos trivial
  refine checked_of_some exec as ?_
  rw [hexec]
  exact h

end Reach
end

/-! ## Machines that answer -/

section
variable {S T C O : Type} {step : S → C → O × S} {step' : T → C → O × T} {s : S} {t : T}

/-- Every input with its answer, in order. -/
def transcript (step : S → C → O × S) : S → List C → List (C × O)
  | _, [] => []
  | s, c :: cs => (c, (step s c).1) :: transcript step (step s c).2 cs

/-- The state after the inputs. -/
def stateAfter (step : S → C → O × S) (s : S) (cs : List C) : S := cs.foldl (fun s c => (step s c).2) s

theorem stateAfter_append {cs : List C} {c : C} :
    stateAfter step s (cs ++ [c]) = (step (stateAfter step s cs) c).2 := by
  simp [stateAfter]

theorem transcript_append {cs ds : List C} :
    transcript step s (cs ++ ds) = transcript step s cs ++ transcript step (stateAfter step s cs) ds := by
  induction cs generalizing s with
  | nil => rfl
  | cons c cs ih =>
    rw [List.cons_append, transcript, transcript, ih]
    rfl

/-- Every input is answered. -/
theorem exists_answer {cs : List C} {c : C} (h : c ∈ cs) : ∃ o, (c, o) ∈ transcript step s cs := by
  induction cs generalizing s with
  | nil => cases h
  | cons d cs ih =>
    rcases List.mem_cons.1 h with rfl | h
    · exact ⟨_, List.mem_cons_self⟩
    · obtain ⟨o, ho⟩ := ih h
      exact ⟨o, List.mem_cons_of_mem _ ho⟩

/-- A place in the transcript is a place among the inputs. -/
theorem transcript_split {cs : List C} {before after : List (C × O)} {x : C × O}
    (h : transcript step s cs = before ++ x :: after) :
    ∃ cs₁ cs₂, cs = cs₁ ++ x.1 :: cs₂ ∧ before = transcript step s cs₁ ∧ x.2 = (step (stateAfter step s cs₁) x.1).1 ∧
      after = transcript step (stateAfter step s (cs₁ ++ [x.1])) cs₂ := by
  induction before generalizing s cs with
  | nil =>
    cases cs with
    | nil => cases h
    | cons c cs =>
      obtain ⟨rfl, rfl⟩ := List.cons_eq_cons.1 h
      exact ⟨[], cs, rfl, rfl, rfl, rfl⟩
  | cons y before ih =>
    cases cs with
    | nil => cases h
    | cons c cs =>
      obtain ⟨rfl, hrest⟩ := List.cons_eq_cons.1 h
      obtain ⟨cs₁, cs₂, rfl, rfl, hx, hafter⟩ := ih hrest
      exact ⟨c :: cs₁, cs₂, rfl, rfl, hx, hafter⟩

theorem transcript_eq_after {R : List C → S → T → Prop} {done cs : List C} (h0 : R done s t)
    (hstep : ∀ done' c rest s t, done' ++ c :: rest = done ++ cs → R done' s t →
      (step s c).1 = (step' t c).1 ∧ R (done' ++ [c]) (step s c).2 (step' t c).2) :
    transcript step s cs = transcript step' t cs := by
  induction cs generalizing done s t with
  | nil => rfl
  | cons c cs ih =>
    obtain ⟨hsame, hnext⟩ := hstep done c cs s t rfl h0
    rw [transcript, transcript, hsame, ih hnext]
    intro done' c' rest s t hsplit
    rw [List.append_assoc] at hsplit
    exact hstep done' c' rest s t hsplit

/-- A relation that both machines keep, and under which they answer alike, makes
their transcripts equal. It may speak of the inputs so far. -/
theorem transcript_eq {R : List C → S → T → Prop} {cs : List C} (h0 : R [] s t)
    (hstep : ∀ done c rest s t, done ++ c :: rest = cs → R done s t →
      (step s c).1 = (step' t c).1 ∧ R (done ++ [c]) (step s c).2 (step' t c).2) :
    transcript step s cs = transcript step' t cs := transcript_eq_after h0 hstep

/-- What holds at the start and after each answered input holds all along. -/
theorem stateAfter_invariant {I : List C → S → Prop} {cs : List C} (h0 : I [] s)
    (hstep : ∀ done c rest s, done ++ c :: rest = cs → I done s → I (done ++ [c]) (step s c).2) :
    I cs (stateAfter step s cs) := by
  induction cs using List.reverseRecOn with
  | nil => exact h0
  | append_singleton cs c ih =>
    rw [stateAfter_append]
    refine hstep cs c [] _ rfl (ih fun done c' rest s hsplit => hstep done c' (rest ++ [c]) s ?_)
    rw [← hsplit, List.append_assoc, List.cons_append]
end
