/-
  File:      Ahasd/DraftLength.lean
  Subject:   THE PLANNING LOOP OF A ROUND (AHASDIntegration.h, decide_draft_length).

  The loop polls EDC until a poll says stop or the cap is reached, and every poll changes what the
  next one reads. Two loops from one state make the same polls as far as both go, so a lower cap
  only cuts the length off.

  * `pollTimes`, `continuesAt`: the state after a number of polls, and what the next poll says;
  * `FirstStop`: the number of polls that say go on, up to a bound; there is only one (`unique`);
  * `pollLoop_eq`: the loop computes it;
  * **`decide_draft_length_prefix`**: the law between two caps, and what one decision does.
-/
import Ahasd.Integration

namespace Ahasd

/-! ## 1. The polls in a row -/

namespace EDC

/-- The state after `n` polls with one entropy. -/
def pollTimes (e : EDC) (entropyHint : ℚ) : Nat → EDC
  | 0 => e
  | n + 1 => ((e.pollTimes entropyHint n).shouldContinueDrafting entropyHint).2

/-- What poll number `n` says. -/
def continuesAt (e : EDC) (entropyHint : ℚ) (n : Nat) : Bool :=
  ((e.pollTimes entropyHint n).shouldContinueDrafting entropyHint).1

section Polls

variable (e : EDC) (entropyHint : ℚ)

/-- The first poll goes in front. -/
theorem pollTimes_succ (n : Nat) : e.pollTimes entropyHint (n + 1) =
    (e.shouldContinueDrafting entropyHint).2.pollTimes entropyHint n := by
  induction n with
  | zero => rfl
  | succ n ih =>
      show ((e.pollTimes entropyHint (n + 1)).shouldContinueDrafting entropyHint).2 = _
      rw [ih]
      rfl

theorem continuesAt_succ (n : Nat) : e.continuesAt entropyHint (n + 1) =
    (e.shouldContinueDrafting entropyHint).2.continuesAt entropyHint n := by
  unfold continuesAt
  rw [pollTimes_succ]

/-- Every poll is counted. -/
theorem pollTimes_totalDrafts (n : Nat) :
    (e.pollTimes entropyHint n).totalDrafts = e.totalDrafts + n := by
  induction n with
  | zero => rfl
  | succ n ih =>
      show (e.pollTimes entropyHint n).totalDrafts + 1 = _
      rw [ih, Nat.add_assoc]

end Polls

/-- The first `n` polls say go on, and, where `n` is short of the bound, the next one says stop. -/
structure FirstStop (e : EDC) (entropyHint : ℚ) (bound n : Nat) : Prop where
  le : n ≤ bound
  continues : ∀ i < n, e.continuesAt entropyHint i = true
  stops : n < bound → e.continuesAt entropyHint n = false

/-- Up to two bounds the polls go equally far, as far as both bounds allow. -/
theorem FirstStop.unique {e : EDC} {entropyHint : ℚ} {b₁ b₂ n₁ n₂ : Nat} (hb : b₁ ≤ b₂)
    (h₁ : FirstStop e entropyHint b₁ n₁) (h₂ : FirstStop e entropyHint b₂ n₂) :
    n₁ = min b₁ n₂ := by
  have hle := h₁.le
  rcases Nat.lt_trichotomy n₁ n₂ with hlt | rfl | hgt
  · -- poll `n₁` is one that the longer loop went on after
    have hgoes := h₂.continues n₁ hlt
    by_cases hb₁ : n₁ < b₁
    · rw [h₁.stops hb₁] at hgoes
      cases hgoes
    · omega
  · omega
  · have hgoes := h₁.continues n₂ hgt
    rw [h₂.stops (by omega)] at hgoes
    cases hgoes

end EDC

namespace AHASDIntegration

open EDC

/-- **The loop**: it goes on to the first stop, and has made one poll more if there was one. -/
theorem pollLoop_eq (entropyHint : ℚ) (left k : Nat) (e : EDC) :
    ∃ n, FirstStop e entropyHint left n ∧
      pollLoop entropyHint left k e = (k + n, e.pollTimes entropyHint (min (n + 1) left)) := by
  induction left generalizing k e with
  | zero =>
      exact ⟨0, ⟨Nat.le_refl 0, fun _ h => absurd h (Nat.not_lt_zero _),
        fun h => absurd h (Nat.lt_irrefl 0)⟩, rfl⟩
  | succ left ih =>
      have hfirst : e.continuesAt entropyHint 0 = (e.shouldContinueDrafting entropyHint).1 := rfl
      unfold pollLoop
      cases hpoll : e.shouldContinueDrafting entropyHint with
      | mk goes e' =>
          rw [hpoll] at hfirst
          have he' : (e.shouldContinueDrafting entropyHint).2 = e' := by rw [hpoll]
          cases goes with
          | false =>
              refine ⟨0, ⟨Nat.zero_le _, fun _ h => absurd h (Nat.not_lt_zero _), fun _ => hfirst⟩, ?_⟩
              rw [show min (0 + 1) (left + 1) = 0 + 1 by omega, pollTimes_succ, he']
              rfl
          | true =>
              obtain ⟨n, hn, heq⟩ := ih (k + 1) e'
              refine ⟨n + 1, ⟨Nat.succ_le_succ hn.le, fun i hi => ?_, fun h => ?_⟩, ?_⟩
              · cases i with
                | zero => exact hfirst
                | succ i =>
                    rw [continuesAt_succ, he']
                    exact hn.continues i (Nat.lt_of_succ_lt_succ hi)
              · rw [continuesAt_succ, he']
                exact hn.stops (Nat.lt_of_succ_lt_succ h)
              · dsimp only
                rw [heq, show min (n + 1 + 1) (left + 1) = min (n + 1) left + 1 by omega,
                  pollTimes_succ, he', Nat.add_right_comm, Nat.add_assoc]

/-! ## 2. The decision -/

/-- What one decision does: the length `k` for the cap, and the predictor it leaves behind. -/
structure Decided (e : EDC) (entropyHint : ℚ) (cap k : Nat) (e' : EDC) : Prop where
  pos : 1 ≤ k
  le : k ≤ max 1 cap
  /-- The number of polls. -/
  polls : e' = e.pollTimes entropyHint (min k (max 1 cap - 1))
  counted : e'.totalDrafts = e.totalDrafts + min k (max 1 cap - 1)
  /-- A length short of the cap is one whose last poll said stop. -/
  short : k < cap ↔ ∃ last, min k (max 1 cap - 1) = last + 1 ∧ e.continuesAt entropyHint last = false

/-- The decision is the loop. -/
theorem decideDraftLength_eq {a : AHASDIntegration} {e : EDC} (he : a.predictor = some e)
    (entropyHint : ℚ) (cap : Nat) : ∃ n, FirstStop e entropyHint (max 1 cap - 1) n ∧
      (a.decideDraftLength cap entropyHint).1 = 1 + n ∧
      (a.decideDraftLength cap entropyHint).2.predictor =
        some (e.pollTimes entropyHint (min (n + 1) (max 1 cap - 1))) := by
  unfold predictor at he
  split at he
  · next hon =>
      obtain ⟨n, hn, heq⟩ := pollLoop_eq entropyHint (max 1 cap - 1) 1 e
      refine ⟨n, hn, ?_, ?_⟩
      · simp only [decideDraftLength, hon, he, heq]
      · simp only [decideDraftLength, predictor, hon, he, heq, if_true]
  · cases he

/-- The first stop decides. -/
theorem FirstStop.decided {e : EDC} {entropyHint : ℚ} {cap n : Nat}
    (h : FirstStop e entropyHint (max 1 cap - 1) n) :
    Decided e entropyHint cap (1 + n)
      (e.pollTimes entropyHint (min (n + 1) (max 1 cap - 1))) := by
  have hle := h.le
  have hpolls : min (n + 1) (max 1 cap - 1) = min (1 + n) (max 1 cap - 1) := by
    rw [Nat.add_comm]
  refine ⟨by omega, by omega, by rw [hpolls], ?_, ?_⟩
  · rw [pollTimes_totalDrafts, hpolls]
  · constructor
    · intro hshort
      exact ⟨n, by omega, h.stops (by omega)⟩
    · rintro ⟨last, hlast, hstop⟩
      -- at the cap every poll said go on, so the last one too
      refine Nat.lt_of_not_le fun hcap => ?_
      have hgoes := h.continues last (by omega)
      rw [hstop] at hgoes
      cases hgoes

/-- **The planning decision**, from every state of the predictor: a lower cap cuts the length off
    and changes nothing else about it; the length is within the cap, EDC is polled once per
    extension tried, and the length falls short of the cap exactly when the last poll said stop. -/
theorem decide_draft_length_prefix {a : AHASDIntegration} {e : EDC} (he : a.predictor = some e)
    (entropyHint : ℚ) :
    (∀ c₁ c₂, c₁ ≤ c₂ → (a.decideDraftLength c₁ entropyHint).1 =
        min (max 1 c₁) (a.decideDraftLength c₂ entropyHint).1) ∧
      ∀ cap, ∃ e', (a.decideDraftLength cap entropyHint).2.predictor = some e' ∧
        Decided e entropyHint cap (a.decideDraftLength cap entropyHint).1 e' := by
  refine ⟨fun c₁ c₂ hc => ?_, fun cap => ?_⟩
  · obtain ⟨n₁, h₁, hk₁, _⟩ := decideDraftLength_eq he entropyHint c₁
    obtain ⟨n₂, h₂, hk₂, _⟩ := decideDraftLength_eq he entropyHint c₂
    have hn := h₁.unique (by omega) h₂
    rw [hk₁, hk₂]
    omega
  · obtain ⟨n, hn, hk, hpred⟩ := decideDraftLength_eq he entropyHint cap
    refine ⟨_, hpred, ?_⟩
    rw [hk]
    exact FirstStop.decided hn

/-- A fresh coordinator with EDC. -/
theorem decide_draft_length_prefix_sample :
    (∀ c₁ c₂, c₁ ≤ c₂ → ((new {}).decideDraftLength c₁ 2).1 =
        min (max 1 c₁) ((new {}).decideDraftLength c₂ 2).1) ∧
      ∀ cap, ∃ e', ((new {}).decideDraftLength cap 2).2.predictor = some e' ∧
        Decided (.new 10 8 3) 2 cap ((new {}).decideDraftLength cap 2).1 e' :=
  decide_draft_length_prefix (a := new {}) (new_predictor {}) 2

end AHASDIntegration

end Ahasd
