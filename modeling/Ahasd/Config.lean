/-
  File:      Ahasd/Config.lean
  Subject:   THE SIMULATION CONFIGURATION (SimulationConfig.h), the fields the modelled components
             read, with the source's defaults.
-/
import Mathlib.Data.Rat.Floor

namespace Ahasd

/-- `SimulationConfig`. Frequencies are in MHz, latencies in ns. -/
structure SimulationConfig where
  coreFreq : Nat
  dramFreq : Nat
  dramChannels : Nat
  /-- in GB -/
  dramSize : Nat
  precision : Nat
  enableAhasd : Bool := false
  enableEdc : Bool := true
  enableTvc : Bool := true
  enableAau : Bool := true
  enablePimCmdSched : Bool := false
  pimCmdIssueQueueEntries : Nat := 16
  maxDraftLength : Nat := 16
  edcHMax : ℚ := 10
  edcLehtSize : Nat := 8
  edcLlrBits : Nat := 3
  tvcCycleTableSize : Nat := 4
  enableVskm : Bool := false
  kvManagementMode : String := "naive"
  vskmVersionEntries : Nat := 16
  vskmEnableLazyRollback : Bool := true
  vskmVirtualUncommittedBatches : ℚ := 1
  pimEnable : Bool := false
  /-- `pim_channel_mask`: `none` is the empty string, else its numeric tokens -/
  pimChannelMask : Option (List Nat) := none
  pimChannelStride : Nat := 2
  pimClockMhz : Nat := 800
  pimEnableAauFusion : Bool := true
  pimAauFusionRatio : ℚ := 3 / 4
  pimGtsuSwitchNs : Nat := 55
  pimAauBypassNs : Nat := 18
  ssrcEnable : Bool := false
  ssrcConfidenceThreshold : ℚ := 6
  ssrcStateBytesPerToken : Nat := 128
  ssrcResidentLimitBytes : Nat := 4 * 1024 * 1024
  ssrcBypassNs : Nat := 10
  acceptMode : String := "parametric"
  acceptBase : ℚ := 85 / 100
  acceptEntropyAlpha : ℚ := 12 / 100
  acceptLengthDecay : ℚ := 30 / 100
  acceptPMin : ℚ := 5 / 100
  acceptRngSeed : UInt64 := 0x5A5A5A5A5A5A5A5A

end Ahasd
