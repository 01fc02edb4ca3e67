import Mathlib
/-!
# Bounded queues that drop their oldest entry

A queue of at most `size` entries, with how many it has dropped, and with what was
put into it and taken out of it so far. `Ok` says that the two histories agree
with what is left: in order, nothing twice, nothing unaccounted for.
-/

structure Mailbox (α : Type) where
  queue : List α := []
  dropped : ℕ := 0
  put : List α := []
  taken : List α := []
deriving DecidableEq

namespace Mailbox
variable {α : Type} {m : Mailbox α} {size : ℕ} {a : α} {rest : List α}

/-- Appends to the queue; a full one loses its oldest entry. -/
def push (m : Mailbox α) (size : ℕ) (a : α) : Mailbox α where
  queue := if m.queue.length = size then (m.queue ++ [a]).tail else m.queue ++ [a]
  dropped := if m.queue.length = size then m.dropped + 1 else m.dropped
  put := m.put ++ [a]
  taken := m.taken

/-- Takes the entry at the front, before the rest. -/
def pop (m : Mailbox α) (a : α) (rest : List α) : Mailbox α :=
  { m with queue := rest, taken := m.taken ++ [a] }

structure Ok (m : Mailbox α) (size : ℕ) : Prop where
  ordered : (m.taken ++ m.queue).Sublist m.put
  conserved : m.put.length = m.taken.length + m.dropped + m.queue.length
  bounded : m.queue.length ≤ size

theorem ok_empty : Ok ({} : Mailbox α) size := ⟨.refl _, rfl, Nat.zero_le _⟩

theorem Ok.push (h : m.Ok size) : (m.push size a).Ok size where
  ordered := by
    have hall : (m.taken ++ (m.queue ++ [a])).Sublist (m.put ++ [a]) := by
      rw [← List.append_assoc]
      exact h.ordered.append (.refl _)
    simp only [Mailbox.push]
    split
    · exact ((List.tail_sublist _).append_left _).trans hall
    · exact hall
  conserved := by
    have hc := h.conserved
    simp only [Mailbox.push]
    split <;> simp <;> omega
  bounded := by
    have hb := h.bounded
    simp only [Mailbox.push]
    split <;> simp <;> omega

theorem Ok.pop (h : m.Ok size) (hq : m.queue = a :: rest) : (m.pop a rest).Ok size where
  ordered := by
    have ho := h.ordered
    rw [hq] at ho
    simpa [Mailbox.pop] using ho
  conserved := by
    have hc := h.conserved
    rw [hq] at hc
    simp only [Mailbox.pop, List.length_append, List.length_cons, List.length_nil] at hc ⊢
    omega
  bounded := by
    have hb := h.bounded
    rw [hq, List.length_cons] at hb
    exact Nat.le_of_succ_le hb

end Mailbox
