/-
  File:      Ahasd/TVC.lean
  Subject:   THE TIME-AWARE PRE-VERIFICATION CONTROL (async_queue/TVC.h).

  Three sliding windows of cycle records (NVCT for NPU verifications, PDCT for PIM drafts, PVCT for
  PIM pre-verifications) and the register of the current NPU task (NCR). `float` and `double` are
  exact rationals; the cycle registers are 64-bit, so the one subtraction that could wrap is
  written with its wrap.

  * `recordNpuVerification`, `recordPimDrafting`, `recordPimPreverification`: the windows;
  * `startNpuTask`, `updateNpuProgress`: the NCR;
  * `shouldInsertPreverification`: the decision, with the length it proposes;
  * `tables`: the windows the completions fill; `shouldInsertPreverification_frame`: a decision is
    counted, and leaves the windows and the registers as they are.
-/
import Mathlib.Data.Rat.Floor
import Ahasd.Lib.Window

namespace Ahasd

/-- A cycle count with the length it was measured for. -/
structure CycleRecord where
  cycles : Nat
  length : Nat
  deriving DecidableEq, Repr

/-- `get_ratio`. -/
def CycleRecord.getRatio (r : CycleRecord) : ℚ :=
  if r.length = 0 then 0 else (r.cycles : ℚ) / r.length

/-- The state of the pre-verification control. -/
structure TVC where
  nvct : List CycleRecord
  pdct : List CycleRecord
  pvct : List CycleRecord
  ncr : Nat
  npuTaskStart : Nat
  freqRatio : ℚ
  cycleTableSize : Nat
  totalPreverifications : Nat
  successfulPreverifications : Nat
  preventedNpuIdles : Nat
  totalDecisions : Nat

namespace TVC

/-- The constructor. -/
def new (pimFreqMhz npuFreqMhz : ℚ) (cycleTableSize : Nat) : TVC where
  nvct := []
  pdct := []
  pvct := []
  ncr := 0
  npuTaskStart := 0
  freqRatio := pimFreqMhz / npuFreqMhz
  cycleTableSize := max 1 cycleTableSize
  totalPreverifications := 0
  successfulPreverifications := 0
  preventedNpuIdles := 0
  totalDecisions := 0

/-- `calculate_avg_ratio`. -/
def calculateAvgRatio (table : List CycleRecord) : ℚ :=
  if table.isEmpty then 0
  else (table.map CycleRecord.getRatio).sum / table.length

/-- `add_to_table`: the oldest records leave until there is room for one. -/
def addToTable (t : TVC) (table : List CycleRecord) (cycles length : Nat) : List CycleRecord :=
  table.drop (table.length + 1 - t.cycleTableSize) ++ [⟨cycles, length⟩]

/-- `record_npu_verification`. -/
def recordNpuVerification (t : TVC) (cycles kvCacheLength : Nat) : TVC :=
  { t with nvct := t.addToTable t.nvct cycles kvCacheLength }

/-- `record_pim_drafting`. -/
def recordPimDrafting (t : TVC) (cycles draftLength : Nat) : TVC :=
  { t with pdct := t.addToTable t.pdct cycles draftLength }

/-- `record_pim_preverification`. -/
def recordPimPreverification (t : TVC) (cycles draftLength : Nat) : TVC :=
  { t with
    pvct := t.addToTable t.pvct cycles draftLength
    totalPreverifications := t.totalPreverifications + 1 }

/-- `start_npu_task`. -/
def startNpuTask (t : TVC) (currentCycle : Nat) : TVC :=
  { t with npuTaskStart := currentCycle, ncr := 0 }

/-- `update_npu_progress`: a 64-bit subtraction. -/
def updateNpuProgress (t : TVC) (currentNpuCycle : Nat) : TVC :=
  { t with ncr := (currentNpuCycle + 2 ^ 64 - t.npuTaskStart) % 2 ^ 64 }

/-- The length `should_insert_preverification` proposes once there is slack: what fits, clamped to
    the pending drafts and to 8, never below 1. -/
def preverifyLength (pimLeftCycles : Nat) (preverifyRatio : ℚ) (pendingDraftCount : Nat) : Nat :=
  max 1 (min (min ⌊pimLeftCycles / preverifyRatio⌋₊ pendingDraftCount) 8)

/-- `should_insert_preverification`: `(insert?, length)`. -/
def shouldInsertPreverification (t : TVC) (currentKvLength pendingDraftCount : Nat) :
    (Bool × Nat) × TVC :=
  let t := { t with totalDecisions := t.totalDecisions + 1 }
  if t.nvct.isEmpty || t.pdct.isEmpty || pendingDraftCount == 0 then ((false, 0), t)
  else
    let npuRatio := calculateAvgRatio t.nvct
    let predictedNpuCycles := ⌊npuRatio * currentKvLength * t.freqRatio⌋₊
    let draftRatio := calculateAvgRatio t.pdct
    let oneDraftCycles := ⌊draftRatio⌋₊
    if predictedNpuCycles ≤ t.ncr + oneDraftCycles then ((false, 0), t)
    else
      let pimLeftCycles := predictedNpuCycles - (t.ncr + oneDraftCycles)
      let preverifyRatio := calculateAvgRatio t.pvct
      let preverifyRatio :=
        if preverifyRatio < 1 / 1000000 then draftRatio * (8 / 10) else preverifyRatio
      let length := preverifyLength pimLeftCycles preverifyRatio pendingDraftCount
      if 1 ≤ length then
        ((true, length),
          { t with successfulPreverifications := t.successfulPreverifications + 1 })
      else ((false, 0), t)

/-- `record_prevented_idle`. -/
def recordPreventedIdle (t : TVC) : TVC :=
  { t with preventedNpuIdles := t.preventedNpuIdles + 1 }

/-- `reset`. -/
def reset (t : TVC) : TVC :=
  { t with nvct := [], pdct := [], pvct := [], ncr := 0, npuTaskStart := 0 }

/-! ## What the operations do -/

/-- The size of the windows, the verifications' window and the pre-verifications' window. -/
def tables (t : TVC) : Nat × List CycleRecord × List CycleRecord :=
  (t.cycleTableSize, t.nvct, t.pvct)

/-- The registers are not part of the windows. -/
theorem tables_ncr (t : TVC) (ncr : Nat) : ({ t with ncr := ncr } : TVC).tables = t.tables := rfl

@[simp] theorem updateNpuProgress_tables (t : TVC) (currentNpuCycle : Nat) :
    (t.updateNpuProgress currentNpuCycle).tables = t.tables :=
  t.tables_ncr _

theorem totalDecisions_ncr (t : TVC) (ncr : Nat) :
    ({ t with ncr := ncr } : TVC).totalDecisions = t.totalDecisions := rfl

@[simp] theorem updateNpuProgress_totalDecisions (t : TVC) (currentNpuCycle : Nat) :
    (t.updateNpuProgress currentNpuCycle).totalDecisions = t.totalDecisions :=
  t.totalDecisions_ncr _

@[simp] theorem startNpuTask_tables (t : TVC) (currentCycle : Nat) :
    (t.startNpuTask currentCycle).tables = t.tables :=
  rfl

@[simp] theorem recordPimDrafting_tables (t : TVC) (cycles draftLength : Nat) :
    (t.recordPimDrafting cycles draftLength).tables = t.tables :=
  rfl

section Decision

variable (t : TVC) (currentKvLength pendingDraftCount : Nat)

/-- **A decision is counted, and so is one to insert**; nothing else changes. -/
theorem shouldInsertPreverification_frame : ∃ successes,
    (t.shouldInsertPreverification currentKvLength pendingDraftCount).2 =
      { t with
        totalDecisions := t.totalDecisions + 1
        successfulPreverifications := successes } := by
  unfold shouldInsertPreverification
  dsimp only
  split
  · exact ⟨_, rfl⟩
  · split
    · exact ⟨_, rfl⟩
    · split <;> split <;> exact ⟨_, rfl⟩

end Decision

end TVC

end Ahasd
