/-
  File:      Ahasd/Lib/Queues.lean
  Subject:   WHAT SEVERAL QUEUES HOLD TOGETHER. A library file: it names nothing of the program.

  * `gather f n`: what the first `n` of the queues `f` hold, in no order;
  * `gather_push`, `gather_pop`, `gather_eraseIdx`: a queue gets one more, loses its first or any.
-/
import Mathlib.Algebra.BigOperators.Group.Finset.Basic
import Mathlib.Algebra.Order.BigOperators.Group.Finset
import Mathlib.Data.Multiset.AddSub
import Mathlib.Data.Finset.Range

namespace Queues

variable {α : Type} {f : ℕ → List α} {n c : ℕ}

/-- What the first `n` queues hold. -/
def gather (f : ℕ → List α) (n : ℕ) : Multiset α := ∑ k ∈ Finset.range n, (f k : Multiset α)

/-- A queue is changed. -/
theorem gather_update (hc : c < n) (q : List α) :
    gather (Function.update f c q) n + f c = gather f n + (q : Multiset α) := by
  have hmem : c ∈ Finset.range n := Finset.mem_range.mpr hc
  have hrest : ∑ k ∈ (Finset.range n).erase c, (Function.update f c q k : Multiset α) =
      ∑ k ∈ (Finset.range n).erase c, (f k : Multiset α) := by
    refine Finset.sum_congr rfl fun k hk => ?_
    rw [Function.update_of_ne (Finset.ne_of_mem_erase hk)]
  have h₁ := Finset.add_sum_erase (Finset.range n) (fun k => (Function.update f c q k : Multiset α))
    hmem
  have h₂ := Finset.add_sum_erase (Finset.range n) (fun k => (f k : Multiset α)) hmem
  simp only [Function.update_self] at h₁
  rw [gather, gather, ← h₁, ← h₂, hrest]
  ac_rfl

/-- One more in a queue. -/
theorem gather_push (hc : c < n) (a : α) :
    gather (Function.update f c (f c ++ [a])) n = a ::ₘ gather f n := by
  have h := gather_update (f := f) hc (f c ++ [a])
  rw [← Multiset.coe_add, ← add_assoc, add_right_comm] at h
  rw [add_right_cancel h, Multiset.coe_singleton, add_comm, Multiset.singleton_add]

/-- A queue loses one. -/
theorem gather_remove (hc : c < n) {a : α} {q : List α} (h : (f c).Perm (a :: q)) :
    gather f n = a ::ₘ gather (Function.update f c q) n := by
  have hu := gather_update (f := f) hc q
  rw [Multiset.coe_eq_coe.mpr h, ← Multiset.cons_coe, ← Multiset.singleton_add, ← add_assoc] at hu
  rw [← add_right_cancel hu, add_comm, Multiset.singleton_add]

/-- A queue loses its first. -/
theorem gather_pop (hc : c < n) {a : α} {q : List α} (h : f c = a :: q) :
    gather f n = a ::ₘ gather (Function.update f c q) n :=
  gather_remove hc (h ▸ List.Perm.refl _)

/-- A queue loses any of its own. -/
theorem gather_eraseIdx (hc : c < n) {a : α} {i : ℕ} (h : (f c)[i]? = some a) :
    gather f n = a ::ₘ gather (Function.update f c ((f c).eraseIdx i)) n := by
  obtain ⟨hi, rfl⟩ := List.getElem?_eq_some_iff.mp h
  exact gather_remove hc (List.getElem_cons_eraseIdx_perm hi).symm

theorem mem_gather {a : α} : a ∈ gather f n ↔ ∃ k < n, a ∈ f k := by
  simp [gather, Multiset.mem_sum]

/-- They hold nothing if each of them is empty. -/
theorem gather_eq_zero : gather f n = 0 ↔ ∀ k < n, f k = [] := by
  simp only [Multiset.eq_zero_iff_forall_notMem, mem_gather, List.eq_nil_iff_forall_not_mem]
  constructor
  · exact fun h k hk a ha => h a ⟨k, hk, ha⟩
  · exact fun h a ⟨k, hk, ha⟩ => h k hk a ha

end Queues
