/-
  File:      Ahasd/EnergyModel.lean
  Subject:   THE ENERGY MODEL (EnergyModel.cc), over exact numbers.

  A table of coefficients turns the counters of a run into energies. What AAU fused is taken off
  again: so much for each event, but no more than the bytes cost that it kept off the PIM and bus
  paths. Without such bytes the events are not capped.

  * `compute`: the breakdown; `Breakdown.net`: its total before the clamp;
  * **`savings_le_bytes_iff`**: exactly when the credit is at most what the saved bytes cost;
  * `net_nonneg`: a credit within the PIM and bus energy takes no clamp.
-/
import Mathlib.Algebra.Order.Field.Rat
import Mathlib.Algebra.Order.Field.Basic
import Mathlib.Data.Rat.Cast.Order
import Mathlib.Tactic.Positivity
import Mathlib.Tactic.Linarith

namespace Ahasd

/-! ## 1. Coefficients and counters -/

/-- `EnergyCoeffs`, in pJ. -/
structure EnergyCoeffs where
  npuActivePjPerCycle : ℚ := 3000
  npuVectorPjPerCycle : ℚ := 500
  npuIdlePjPerCycle : ℚ := 300
  pimReadPjPerByte : ℚ := 35
  pimWritePjPerByte : ℚ := 55
  pimRankLeakPjPerPimCycle : ℚ := 50
  aauFusionSavePjPerEvent : ℚ := 80000
  busPjPerByte : ℚ := 40
  gtsuSwitchPjPerEvent : ℚ := 20000

/-- `CoreAggregate`: the cores, summed up. -/
structure CoreAggregate where
  totSystolicActiveCycle : Nat := 0
  totVecComputeCycle : Nat := 0
  totIdleCycle : Nat := 0
  totMemoryIdleCycle : Nat := 0
  coreCycle : Nat := 0
  numCores : Nat := 1
  deriving DecidableEq, Repr

/-- `PIMAggregate`. -/
structure PIMAggregate where
  totalPimReadBytes : Nat := 0
  totalPimWriteBytes : Nat := 0
  totalAauFusedEvents : Nat := 0
  totalAauFusionSavedBytes : Nat := 0
  totalGtsuSwitches : Nat := 0
  pimCycle : Nat := 0
  numPimChannels : Nat := 0
  deriving DecidableEq, Repr

/-- `BusAggregate`. -/
structure BusAggregate where
  totalBytesNpuToMem : Nat := 0
  totalBytesMemToNpu : Nat := 0
  deriving DecidableEq, Repr

/-- `Breakdown`, in mJ. -/
structure Breakdown where
  npuActiveMj : ℚ := 0
  npuVectorMj : ℚ := 0
  npuIdleMj : ℚ := 0
  pimReadMj : ℚ := 0
  pimWriteMj : ℚ := 0
  pimLeakMj : ℚ := 0
  busMj : ℚ := 0
  gtsuMj : ℚ := 0
  aauSavingsMj : ℚ := 0
  totalMj : ℚ := 0

/-- The total before the clamp. -/
def Breakdown.net (b : Breakdown) : ℚ :=
  b.npuActiveMj + b.npuVectorMj + b.npuIdleMj + b.pimReadMj + b.pimWriteMj + b.pimLeakMj +
    b.busMj + b.gtsuMj - b.aauSavingsMj

/-- No coefficient is negative. -/
structure EnergyCoeffs.NonNeg (c : EnergyCoeffs) : Prop where
  npuActive : 0 ≤ c.npuActivePjPerCycle
  npuVector : 0 ≤ c.npuVectorPjPerCycle
  npuIdle : 0 ≤ c.npuIdlePjPerCycle
  pimRead : 0 ≤ c.pimReadPjPerByte
  pimWrite : 0 ≤ c.pimWritePjPerByte
  pimRankLeak : 0 ≤ c.pimRankLeakPjPerPimCycle
  aauFusionSave : 0 ≤ c.aauFusionSavePjPerEvent
  bus : 0 ≤ c.busPjPerByte
  gtsuSwitch : 0 ≤ c.gtsuSwitchPjPerEvent

namespace EnergyModel

/-! ## 2. The breakdown -/

/-- `kPJtoMJ`. -/
def kPJtoMJ : ℚ := 1 / 1000000000

/-- `event_credit_mj`. -/
def eventCreditMj (c : EnergyCoeffs) (pim : PIMAggregate) : ℚ :=
  pim.totalAauFusedEvents * c.aauFusionSavePjPerEvent * kPJtoMJ

/-- `byte_credit_mj`: what the saved bytes cost on the PIM and bus paths; the event credit again
    where there are none. -/
def byteCreditMj (c : EnergyCoeffs) (pim : PIMAggregate) : ℚ :=
  if pim.totalAauFusionSavedBytes > 0 then
    pim.totalAauFusionSavedBytes * (c.pimReadPjPerByte + c.busPjPerByte) * kPJtoMJ
  else eventCreditMj c pim

/-- `compute`. -/
def compute (c : EnergyCoeffs) (core : CoreAggregate) (pim : PIMAggregate) (bus : BusAggregate) :
    Breakdown :=
  let idleCycles :=
    if core.coreCycle > 0 then core.coreCycle * core.numCores else core.totIdleCycle
  let totalBusBytes := bus.totalBytesNpuToMem + bus.totalBytesMemToNpu
  let b : Breakdown :=
    { npuActiveMj := core.totSystolicActiveCycle * c.npuActivePjPerCycle * kPJtoMJ
      npuVectorMj := core.totVecComputeCycle * c.npuVectorPjPerCycle * kPJtoMJ
      npuIdleMj := idleCycles * c.npuIdlePjPerCycle * kPJtoMJ
      pimReadMj := pim.totalPimReadBytes * c.pimReadPjPerByte * kPJtoMJ
      pimWriteMj := pim.totalPimWriteBytes * c.pimWritePjPerByte * kPJtoMJ
      pimLeakMj := pim.pimCycle * pim.numPimChannels * c.pimRankLeakPjPerPimCycle * kPJtoMJ
      busMj := totalBusBytes * c.busPjPerByte * kPJtoMJ
      gtsuMj := pim.totalGtsuSwitches * c.gtsuSwitchPjPerEvent * kPJtoMJ
      aauSavingsMj := min (eventCreditMj c pim) (byteCreditMj c pim) }
  { b with totalMj := if b.net < 0 then 0 else b.net }

/-! ## 3. The credit -/

theorem kPJtoMJ_pos : 0 < kPJtoMJ := by
  unfold kPJtoMJ
  positivity

variable {c : EnergyCoeffs} {core : CoreAggregate} {pim : PIMAggregate} {bus : BusAggregate}

/-- The total is clamped to 0, and by nothing else. -/
theorem total_eq_net : (compute c core pim bus).totalMj = max 0 (compute c core pim bus).net := by
  show (if (compute c core pim bus).net < 0 then 0 else (compute c core pim bus).net) = _
  split
  · next h => exact (max_eq_left h.le).symm
  · next h => exact (max_eq_right (not_lt.mp h)).symm

/-- **The credit is at most what the saved bytes cost if and only if some byte was saved**, or there
    is no credit to cap. -/
theorem savings_le_bytes_iff (hc : c.NonNeg) :
    (compute c core pim bus).aauSavingsMj ≤
        pim.totalAauFusionSavedBytes * (c.pimReadPjPerByte + c.busPjPerByte) * kPJtoMJ ↔
      0 < pim.totalAauFusionSavedBytes ∨ pim.totalAauFusedEvents = 0 ∨
        c.aauFusionSavePjPerEvent = 0 := by
  show min (eventCreditMj c pim) (byteCreditMj c pim) ≤ _ ↔ _
  unfold byteCreditMj
  by_cases hsaved : pim.totalAauFusionSavedBytes > 0
  · rw [if_pos hsaved]
    exact iff_of_true (min_le_right _ _) (.inl hsaved)
  · rw [if_neg hsaved, min_self, Nat.eq_zero_of_not_pos hsaved, Nat.cast_zero, zero_mul, zero_mul]
    unfold eventCreditMj
    constructor
    · intro hle
      by_contra hno
      simp only [not_or] at hno
      have hevents : (0 : ℚ) < pim.totalAauFusedEvents :=
        Nat.cast_pos.mpr (Nat.pos_of_ne_zero hno.2.1)
      have hcoeff := lt_of_le_of_ne hc.aauFusionSave (Ne.symm hno.2.2)
      exact absurd hle (not_le.mpr (mul_pos (mul_pos hevents hcoeff) kPJtoMJ_pos))
    · rintro (hpos | hzero | hzero)
      · exact absurd hpos (Nat.lt_irrefl 0)
      · rw [hzero, Nat.cast_zero, zero_mul, zero_mul]
      · rw [hzero, mul_zero, zero_mul]

/-- **A credit within the energy of the PIM accesses and the bus takes no clamp.** -/
theorem net_nonneg (hc : c.NonNeg) (hle : (compute c core pim bus).aauSavingsMj ≤
    (compute c core pim bus).pimReadMj + (compute c core pim bus).pimWriteMj +
      (compute c core pim bus).busMj) : 0 ≤ (compute c core pim bus).net := by
  -- every other energy is a count by a coefficient
  have hterm : ∀ (n : Nat) {x : ℚ}, 0 ≤ x → 0 ≤ (n : ℚ) * x * kPJtoMJ := fun n x hx =>
    mul_nonneg (mul_nonneg (Nat.cast_nonneg n) hx) kPJtoMJ_pos.le
  have hactive : 0 ≤ (compute c core pim bus).npuActiveMj := hterm _ hc.npuActive
  have hvector : 0 ≤ (compute c core pim bus).npuVectorMj := hterm _ hc.npuVector
  have hidle : 0 ≤ (compute c core pim bus).npuIdleMj := hterm _ hc.npuIdle
  have hgtsu : 0 ≤ (compute c core pim bus).gtsuMj := hterm _ hc.gtsuSwitch
  have hleak : 0 ≤ (compute c core pim bus).pimLeakMj := by
    show 0 ≤ (pim.pimCycle : ℚ) * pim.numPimChannels * _ * _
    rw [← Nat.cast_mul]
    exact hterm _ hc.pimRankLeak
  unfold Breakdown.net
  linarith

end EnergyModel

end Ahasd
