/-
  File:      Ahasd/Lib/TimedQueue.lean
  Subject:   QUEUES WHOSE ENTRIES CARRY A TIME. A library file: it names nothing of the program.

  * `UpTo latest q`: the times do not decrease from front to back, and none is after `latest`;
  * `Served latest q q'`: nothing happened, the front was taken, or an entry of the time `latest`
    was put at the back; `UpTo.served`: that keeps the queue in order, `UpTo.mono`: so does a later
    bound;
  * `UpTo.due_before`: what stands before an entry that is due is due.
-/
import Mathlib.Order.Basic
import Mathlib.Data.List.Pairwise

namespace TimedQueue

variable {τ α : Type} [Preorder τ]

/-- The times do not decrease from front to back, and none is after `latest`. -/
structure UpTo (latest : τ) (q : List (τ × α)) : Prop where
  inOrder : q.Pairwise fun e f => e.1 ≤ f.1
  bounded : ∀ e ∈ q, e.1 ≤ latest

/-- What a step may do to a queue. -/
inductive Served (latest : τ) : List (τ × α) → List (τ × α) → Prop where
  | none (q : List (τ × α)) : Served latest q q
  | front (e : τ × α) (q : List (τ × α)) : Served latest (e :: q) q
  | back (x : α) (q : List (τ × α)) : Served latest q (q ++ [(latest, x)])

variable {latest latest' : τ} {q q' : List (τ × α)}

theorem UpTo.nil : UpTo latest ([] : List (τ × α)) := ⟨.nil, fun _ h => nomatch h⟩

theorem UpTo.mono (h : UpTo latest q) (hle : latest ≤ latest') : UpTo latest' q :=
  ⟨h.inOrder, fun e he => (h.bounded e he).trans hle⟩

/-- **A served queue stays in order.** -/
theorem UpTo.served (h : UpTo latest q) (hs : Served latest q q') : UpTo latest q' := by
  cases hs with
  | none => exact h
  | front e =>
      exact ⟨h.inOrder.of_cons, fun f hf => h.bounded f (List.mem_cons_of_mem e hf)⟩
  | back x =>
      refine ⟨List.pairwise_append.mpr ⟨h.inOrder, List.pairwise_singleton _ _, ?_⟩, ?_⟩
      · intro e he f hf
        rw [List.mem_singleton.mp hf]
        exact h.bounded e he
      · intro e he
        rcases List.mem_append.mp he with he | he
        · exact h.bounded e he
        · rw [List.mem_singleton.mp he]

/-- **Nothing due waits behind something that is not.** -/
theorem UpTo.due_before (h : UpTo latest q) {before after : List (τ × α)} {e : τ × α} {now : τ}
    (hq : q = before ++ e :: after) (hdue : e.1 ≤ now) : ∀ f ∈ before, f.1 ≤ now := by
  intro f hf
  have hpair := h.inOrder
  rw [hq] at hpair
  have hle := (List.pairwise_append.mp hpair).2.2 f hf e List.mem_cons_self
  exact hle.trans hdue

end TimedQueue
