/-
  File:      Ahasd/Lib/BoundedProgress.lean
  Subject:   WHAT COMES WITHIN A BOUND OF TICKS. A library file: it names nothing of the program.

  * `Awaits M tick P Q`: some actions are TICKS. `P s h n` says that, at `s` and after the
    observations `h`, `Q` is at most `n` ticks and one more away; a step that does not bring `Q`
    keeps that, and a tick lowers the number;
  * **`Awaits.within`**: a run with more than `n` ticks brings `Q`, whatever else it does.
-/
import Ahasd.Lib.Transition

namespace Transition

variable {σ α ε : Type}

/-- `Q` is awaited: no step takes it back or puts it off, and every tick brings it nearer. -/
structure Awaits (M : Machine σ α ε) (tick : α → Bool) (P : σ → List ε → Nat → Prop)
    (Q : List ε → Prop) : Prop where
  kept (h e : List ε) : Q h → Q (h ++ e)
  step (s : σ) (h : List ε) (n : Nat) (a : α) (s' : σ) : P s h n → M.step s a = some s' →
    Q (h ++ M.obs s a s') ∨ ∃ m, P s' (h ++ M.obs s a s') m ∧ m + (tick a).toNat ≤ n

variable {M : Machine σ α ε} {tick : α → Bool} {P : σ → List ε → Nat → Prop} {Q : List ε → Prop}

/-- The ticks of a list of actions. -/
def ticks (tick : α → Bool) (as : List α) : Nat := as.countP tick

theorem ticks_cons (a : α) (as : List α) :
    ticks tick (a :: as) = ticks tick as + (tick a).toNat := by
  unfold ticks
  cases h : tick a with
  | false => rw [List.countP_cons_of_neg (by simp [h])]; rfl
  | true => rw [List.countP_cons_of_pos h]; rfl

/-- **What is awaited comes within the bound.** -/
theorem Awaits.within (hA : Awaits M tick P Q) : ∀ {as : List α} {s t : σ} {h e : List ε} {n : Nat},
    P s h n → M.run as s = some (t, e) → n < ticks tick as → Q (h ++ e) := by
  intro as
  induction as with
  | nil => exact fun _ _ hn => absurd hn (Nat.not_lt_zero _)
  | cons a as ih =>
      intro s t h e n hP hr hn
      unfold Machine.run at hr
      cases hs : M.step s a with
      | none => rw [hs] at hr; cases hr
      | some s' =>
          rw [hs] at hr
          dsimp only at hr
          cases hr' : M.run as s' with
          | none => rw [hr'] at hr; cases hr
          | some r =>
              rw [hr'] at hr
              obtain ⟨t', e'⟩ := r
              cases hr
              rw [← List.append_assoc]
              rcases hA.step s h n a s' hP hs with hQ | ⟨m, hP', hm⟩
              · exact hA.kept _ _ hQ
              · refine ih hP' hr' ?_
                rw [ticks_cons] at hn
                omega

end Transition
