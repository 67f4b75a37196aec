/-
  File:      Ahasd/PreVerifyDecision.lean
  Subject:   WHEN A PRE-VERIFICATION FITS (TVC.h, should_insert_preverification).

  TVC predicts the cycles of the running NPU task from its tables, takes off what has passed and one
  draft, and proposes as many tokens as fit into the rest. The proposal is clamped to at least one
  token, so a rest too small for one token proposes one all the same.

  * `predictedNpuCycles`, `oneDraftCycles`, `preverifyRatio`: the predictions of the decision;
  * `TokensFit`: so many tokens fit into the predicted rest; `Justified`: what a decision promises;
  * **`preverification_justified_iff`**: exactly when the decision keeps the promise.
-/
import Ahasd.TVC
import Mathlib.Algebra.Order.BigOperators.Group.List
import Mathlib.Tactic.Linarith
import Mathlib.Tactic.Positivity

namespace Ahasd

namespace TVC

/-! ## 1. The predictions -/

/-- The predicted cycles of the NPU task, in PIM cycles. -/
def predictedNpuCycles (t : TVC) (currentKvLength : Nat) : Nat :=
  ⌊calculateAvgRatio t.nvct * currentKvLength * t.freqRatio⌋₊

/-- The predicted cycles of one draft. -/
def oneDraftCycles (t : TVC) : Nat := ⌊calculateAvgRatio t.pdct⌋₊

/-- The predicted cycles of one pre-verified token, estimated from the drafts without data. -/
def preverifyRatio (t : TVC) : ℚ :=
  if calculateAvgRatio t.pvct < 1 / 1000000 then calculateAvgRatio t.pdct * (8 / 10)
  else calculateAvgRatio t.pvct

/-- There is no data, or no draft to pre-verify. -/
def NoData (t : TVC) (pendingDraftCount : Nat) : Prop :=
  t.nvct = [] ∨ t.pdct = [] ∨ pendingDraftCount = 0

/-- `n` tokens fit into the predicted rest of the NPU task, besides one draft. -/
def TokensFit (t : TVC) (currentKvLength n : Nat) : Prop :=
  (t.ncr : ℚ) + t.oneDraftCycles + n * t.preverifyRatio ≤ t.predictedNpuCycles currentKvLength

/-- Something is left of the NPU task after one draft. -/
def HasSlack (t : TVC) (currentKvLength : Nat) : Prop :=
  t.ncr + t.oneDraftCycles < t.predictedNpuCycles currentKvLength

/-- What is left of it. -/
def pimLeftCycles (t : TVC) (currentKvLength : Nat) : Nat :=
  t.predictedNpuCycles currentKvLength - (t.ncr + t.oneDraftCycles)

theorem getRatio_nonneg (r : CycleRecord) : 0 ≤ r.getRatio := by
  unfold CycleRecord.getRatio
  split
  · exact le_refl 0
  · positivity

theorem calculateAvgRatio_nonneg (table : List CycleRecord) : 0 ≤ calculateAvgRatio table := by
  unfold calculateAvgRatio
  split
  · exact le_refl 0
  · have hsum : 0 ≤ (table.map CycleRecord.getRatio).sum := by
      refine List.sum_nonneg fun x hx => ?_
      obtain ⟨r, _, rfl⟩ := List.mem_map.mp hx
      exact getRatio_nonneg r
    positivity

theorem preverifyRatio_nonneg (t : TVC) : 0 ≤ t.preverifyRatio := by
  have hdraft := calculateAvgRatio_nonneg t.pdct
  unfold preverifyRatio
  split
  · positivity
  · exact calculateAvgRatio_nonneg t.pvct

/-! ## 2. The decision -/

section Decision

variable (t : TVC) (currentKvLength pendingDraftCount : Nat)

/-- The decision without data. -/
theorem shouldInsertPreverification_noData (h : t.NoData pendingDraftCount) :
    (t.shouldInsertPreverification currentKvLength pendingDraftCount).1 = (false, 0) := by
  have hguard : (t.nvct.isEmpty || t.pdct.isEmpty || pendingDraftCount == 0) = true := by
    rcases h with h | h | h <;> simp [h]
  unfold shouldInsertPreverification
  simp only [hguard, if_true]

/-- **The decision with data**: it inserts exactly when there is slack. -/
theorem shouldInsertPreverification_data (h : ¬ t.NoData pendingDraftCount) :
    (t.HasSlack currentKvLength →
      (t.shouldInsertPreverification currentKvLength pendingDraftCount).1 =
        (true, preverifyLength (t.pimLeftCycles currentKvLength) t.preverifyRatio
          pendingDraftCount)) ∧
    (¬ t.HasSlack currentKvLength →
      (t.shouldInsertPreverification currentKvLength pendingDraftCount).1 = (false, 0)) := by
  unfold NoData at h
  rw [not_or, not_or] at h
  have hguard : (t.nvct.isEmpty || t.pdct.isEmpty || pendingDraftCount == 0) = false := by
    simp [h.1, h.2.1, h.2.2]
  have hlength : ∀ left ratio, 1 ≤ preverifyLength left ratio pendingDraftCount :=
    fun left ratio => Nat.le_max_left _ _
  unfold shouldInsertPreverification
  simp only [hguard, hlength, if_true, Bool.false_eq_true, if_false]
  constructor
  · intro hslack
    have hleft : ¬ ⌊calculateAvgRatio t.nvct * currentKvLength * t.freqRatio⌋₊ ≤
        t.ncr + ⌊calculateAvgRatio t.pdct⌋₊ := Nat.not_le.mpr hslack
    rw [if_neg hleft]
    rfl
  · intro hslack
    have hleft : ⌊calculateAvgRatio t.nvct * currentKvLength * t.freqRatio⌋₊ ≤
        t.ncr + ⌊calculateAvgRatio t.pdct⌋₊ := Nat.not_lt.mp hslack
    rw [if_pos hleft]

/-- A decision prevents no idle by itself. -/
theorem shouldInsertPreverification_preventedNpuIdles :
    (t.shouldInsertPreverification currentKvLength pendingDraftCount).2.preventedNpuIdles =
      t.preventedNpuIdles := by
  unfold shouldInsertPreverification
  dsimp only
  split
  · rfl
  · split
    · rfl
    · split <;> split <;> rfl

/-- What a decision promises: an inserted length is between 1 and 8, covers pending drafts only, and
    fits; where none is inserted there is no data, or not one token fits. -/
structure Justified (t : TVC) (currentKvLength pendingDraftCount : Nat) (decision : Bool × Nat) :
    Prop where
  inserted : decision.1 = true → 1 ≤ decision.2 ∧ decision.2 ≤ min 8 pendingDraftCount ∧
    t.TokensFit currentKvLength decision.2
  declined : decision.1 = false → t.NoData pendingDraftCount ∨ ¬ t.TokensFit currentKvLength 1

/-- Fewer tokens fit all the more. -/
theorem TokensFit.mono {t : TVC} {currentKvLength m n : Nat} (h : t.TokensFit currentKvLength n)
    (hle : m ≤ n) : t.TokensFit currentKvLength m := by
  have hratio := t.preverifyRatio_nonneg
  have hcast : (m : ℚ) ≤ n := by exact_mod_cast hle
  have hmul : (m : ℚ) * t.preverifyRatio ≤ n * t.preverifyRatio :=
    mul_le_mul_of_nonneg_right hcast hratio
  unfold TokensFit at h ⊢
  linarith

variable {t currentKvLength pendingDraftCount}

/-- What is left covers so many tokens as the division says. -/
theorem TokensFit.floor (hslack : t.HasSlack currentKvLength) (hratio : t.preverifyRatio ≠ 0) :
    t.TokensFit currentKvLength ⌊(t.pimLeftCycles currentKvLength : ℚ) / t.preverifyRatio⌋₊ := by
  have hnonneg := t.preverifyRatio_nonneg
  have hleft : (t.pimLeftCycles currentKvLength : ℚ) =
      t.predictedNpuCycles currentKvLength - (t.ncr + t.oneDraftCycles) := by
    unfold pimLeftCycles
    rw [Nat.cast_sub (Nat.le_of_lt hslack), Nat.cast_add]
  have hfloor := Nat.floor_le (div_nonneg (Nat.cast_nonneg (t.pimLeftCycles currentKvLength)) hnonneg)
  have hcover : (⌊(t.pimLeftCycles currentKvLength : ℚ) / t.preverifyRatio⌋₊ : ℚ) *
      t.preverifyRatio ≤ t.pimLeftCycles currentKvLength := by
    calc _ ≤ (t.pimLeftCycles currentKvLength : ℚ) / t.preverifyRatio * t.preverifyRatio :=
          mul_le_mul_of_nonneg_right hfloor hnonneg
      _ = _ := div_mul_cancel₀ _ hratio
  unfold TokensFit
  linarith

/-- **The proposed length fits when one token does**: it is what fits, or less. -/
theorem preverifyLength_fits (hslack : t.HasSlack currentKvLength)
    (hone : t.TokensFit currentKvLength 1) :
    t.TokensFit currentKvLength (preverifyLength (t.pimLeftCycles currentKvLength) t.preverifyRatio
      pendingDraftCount) := by
  by_cases hratio : t.preverifyRatio = 0
  · refine hone.mono ?_
    rw [hratio]
    simp [preverifyLength]
  · -- one token, or at most what the division says
    rcases Nat.lt_or_ge 1 (preverifyLength (t.pimLeftCycles currentKvLength) t.preverifyRatio
      pendingDraftCount) with hmore | hone'
    · refine (TokensFit.floor hslack hratio).mono ?_
      unfold preverifyLength at hmore ⊢
      generalize ⌊(t.pimLeftCycles currentKvLength : ℚ) / t.preverifyRatio⌋₊ = fits at hmore ⊢
      omega
    · exact hone.mono hone'

end Decision

/-- **Exactly when a decision keeps its promise**: there is no data, or one token fits exactly when
    there is slack. A slack smaller than one token is proposed all the same. -/
theorem preverification_justified_iff (t : TVC) (currentKvLength pendingDraftCount : Nat) :
    t.Justified currentKvLength pendingDraftCount
        (t.shouldInsertPreverification currentKvLength pendingDraftCount).1 ↔
      t.NoData pendingDraftCount ∨
        (t.TokensFit currentKvLength 1 ↔ t.HasSlack currentKvLength) := by
  by_cases hdata : t.NoData pendingDraftCount
  · rw [t.shouldInsertPreverification_noData currentKvLength pendingDraftCount hdata]
    exact iff_of_true ⟨Bool.noConfusion, fun _ => .inl hdata⟩ (.inl hdata)
  · obtain ⟨hinsert, hdecline⟩ :=
      t.shouldInsertPreverification_data currentKvLength pendingDraftCount hdata
    by_cases hslack : t.HasSlack currentKvLength
    · rw [hinsert hslack]
      constructor
      · intro J
        obtain ⟨hpos, _, hfit⟩ := J.inserted rfl
        exact .inr (iff_of_true (hfit.mono hpos) hslack)
      · rintro (hnone | hiff)
        · exact absurd hnone hdata
        · have hpending : pendingDraftCount ≠ 0 := fun h => hdata (.inr (.inr h))
          refine ⟨fun _ => ⟨Nat.le_max_left _ _, ?_, preverifyLength_fits hslack
            (hiff.mpr hslack)⟩, Bool.noConfusion⟩
          unfold preverifyLength
          dsimp only
          omega
    · rw [hdecline hslack]
      constructor
      · intro J
        rcases J.declined rfl with hnone | hfit
        · exact absurd hnone hdata
        · exact .inr (iff_of_false hfit hslack)
      · rintro (hnone | hiff)
        · exact absurd hnone hdata
        · exact ⟨Bool.noConfusion, fun _ => .inr fun hfit => hslack (hiff.mp hfit)⟩

/-- A control with one record in each table of verifications and drafts: 80 cycles predicted at a KV
    length of 10, 70 for a draft, 56 for a pre-verified token. -/
def tightControl : TVC :=
  ((new 800 1000 4).recordNpuVerification 100 10).recordPimDrafting 70 1

/-- Ten cycles are left, a token takes 56, and one token is proposed. -/
theorem preverification_does_not_fit :
    (tightControl.shouldInsertPreverification 10 4).1 = (true, 1) ∧
      ¬ tightControl.Justified 10 4 (tightControl.shouldInsertPreverification 10 4).1 := by
  have hdecision : (tightControl.shouldInsertPreverification 10 4).1 = (true, 1) := by
    decide +kernel
  refine ⟨hdecision, fun J => ?_⟩
  rw [hdecision] at J
  have hfit := (J.inserted rfl).2.2
  revert hfit
  unfold TokensFit
  decide +kernel

end TVC

end Ahasd
