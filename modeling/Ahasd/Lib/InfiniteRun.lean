/-
  File:      Ahasd/Lib/InfiniteRun.lean
  Subject:   RUNS THAT GO ON FOR EVER. A library file: it names nothing of the program.

  * `InfiniteRun M s₀`: a state and an action at every time; `along`: the run of actions that are
    possible everywhere; `history n`: what the first `n` steps showed;
  * `Often P`: actions of a kind come again and again;
  * `silent_after`: a run that shows a bounded number of observations shows nothing any more from
    some time on;
  * `clock_reaches`: what no step lowers and what comes again and again raises, reaches every bound.
-/
import Ahasd.Lib.Transition

namespace Transition

variable {σ α ε : Type}

/-- An infinite run from `s₀`. -/
structure InfiniteRun (M : Machine σ α ε) (s₀ : σ) where
  state : ℕ → σ
  act : ℕ → α
  start : state 0 = s₀
  step (n : ℕ) : M.step (state n) (act n) = some (state (n + 1))

namespace InfiniteRun

variable {M : Machine σ α ε} {s₀ : σ} (r : InfiniteRun M s₀)

/-- The run of actions that are possible everywhere. -/
def along (M : Machine σ α ε) (s₀ : σ) (act : ℕ → α)
    (h : ∀ n s, (M.step s (act n)).isSome = true) : InfiniteRun M s₀ where
  state n := n.rec s₀ fun k s => (M.step s (act k)).getD s
  act := act
  start := rfl
  step n := by
    obtain ⟨s', hs⟩ := Option.isSome_iff_exists.mp
      (h n (n.rec s₀ fun k s => (M.step s (act k)).getD s))
    dsimp only
    rw [hs]
    rfl

/-- What a step shows. -/
def shown (n : ℕ) : List ε := M.obs (r.state n) (r.act n) (r.state (n + 1))

/-- What the first steps showed. -/
def history (r : InfiniteRun M s₀) : ℕ → List ε
  | 0 => []
  | n + 1 => history r n ++ r.shown n

/-- Actions of a kind come again and again. -/
def Often (P : α → Prop) : Prop := ∀ n, ∃ m, n ≤ m ∧ P (r.act m)

/-- Up to every time it is a run. -/
theorem exec (n : ℕ) : Exec M s₀ (r.state n) (r.history n) := by
  induction n with
  | zero =>
      rw [r.start]
      exact .start
  | succ n ih => exact .step _ _ _ (r.act n) ih (r.step n)

theorem history_length_mono {n m : ℕ} (h : n ≤ m) :
    (r.history n).length ≤ (r.history m).length := by
  induction h with
  | refl => exact Nat.le_refl _
  | step _ ih => exact Nat.le_trans ih (by simp [history])

/-- **A bounded number of observations ends.** -/
theorem silent_after {bound : ℕ} (h : ∀ n, (r.history n).length ≤ bound) :
    ∃ N, ∀ n, N ≤ n → r.shown n = [] := by
  -- a time at which the history is as long as it gets
  obtain ⟨N, hN⟩ : ∃ N, ∀ n, (r.history n).length ≤ (r.history N).length := by
    by_contra hno
    have hgrows : ∀ k, ∃ n, k ≤ (r.history n).length := by
      intro k
      induction k with
      | zero => exact ⟨0, Nat.zero_le _⟩
      | succ k ih =>
          obtain ⟨n, hn⟩ := ih
          obtain ⟨m, hm⟩ := not_forall.mp (not_exists.mp hno n)
          exact ⟨m, by omega⟩
    obtain ⟨n, hn⟩ := hgrows (bound + 1)
    have hle := h n
    omega
  refine ⟨N, fun n hn => List.eq_nil_of_length_eq_zero ?_⟩
  have hnow := r.history_length_mono hn
  have hnext := hN (n + 1)
  rw [history, List.length_append] at hnext
  omega

/-- **A clock reaches every bound**, and an action that comes often finds it there. -/
theorem clock_reaches (clock : σ → ℕ) {tick P : α → Prop} {N : ℕ}
    (hmono : ∀ n, N ≤ n → clock (r.state n) ≤ clock (r.state (n + 1)))
    (htick : ∀ n, N ≤ n → tick (r.act n) → clock (r.state n) < clock (r.state (n + 1)))
    (hoften : r.Often tick) (hP : r.Often P) (bound : ℕ) :
    ∃ n, N ≤ n ∧ P (r.act n) ∧ bound ≤ clock (r.state n) := by
  have hlater : ∀ {n m}, N ≤ n → n ≤ m → clock (r.state n) ≤ clock (r.state m) := by
    intro n m hn hm
    induction hm with
    | refl => exact Nat.le_refl _
    | step hle ih => exact Nat.le_trans ih (hmono _ (Nat.le_trans hn hle))
  have hreach : ∃ n, N ≤ n ∧ bound ≤ clock (r.state n) := by
    induction bound with
    | zero => exact ⟨N, Nat.le_refl N, Nat.zero_le _⟩
    | succ bound ih =>
        obtain ⟨n, hn, hle⟩ := ih
        obtain ⟨m, hm, ht⟩ := hoften n
        have hraise := htick m (Nat.le_trans hn hm) ht
        have hgrown := hlater hn hm
        exact ⟨m + 1, by omega, by omega⟩
  obtain ⟨n, hn, hle⟩ := hreach
  obtain ⟨m, hm, hp⟩ := hP n
  exact ⟨m, Nat.le_trans hn hm, hp, Nat.le_trans hle (hlater hn hm)⟩

end InfiniteRun

end Transition
