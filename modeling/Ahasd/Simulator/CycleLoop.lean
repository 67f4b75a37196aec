/-
  File:      Ahasd/Simulator/CycleLoop.lean
  Subject:   THE MAIN LOOP OF THE SIMULATOR (Simulator.cc, `cycle`), and THE TWO CLOCKS OF TVC'S
             PROGRESS.

  An iteration runs the domains that are due. A core tick calls the scheduler, then lets the tiles
  finish and start, and steps `_core_cycles` last; the interconnect cycle brings requests to the
  memory side; the beacon passes `_core_cycles` to TVC, which subtracts the start of the NPU's task,
  a value of the scheduler's own `_cycle`. What the tiles and the interconnect ask of the scheduler,
  of the PIM backend and of SSRC is any list of calls, and a run may go on where `running` would end
  it. The clocks count without bound.

  * `setCycleMask`, `coreTick`, `icntCycle`, `beacon`, `iterate`: the loop;
  * `Beacon`: what TVC makes of the cycle passed to it; `Setup.loopRun`: the runs of the loop;
  * `InStep`, `iterate_inStep`: the two clocks step together;
  * **`npu_progress_never_wraps`**: no beacon passes a cycle before the start.
-/
import Ahasd.Scheduler.Clock

namespace Ahasd

open Transition

/-! ## 1. The loop -/

/-- `_cycle_mask`: the domains that are due. -/
structure CycleMask where
  core : Bool
  dram : Bool
  icnt : Bool
  deriving DecidableEq, Repr

/-- What the core tick asks of the scheduler after `handle_model`. -/
inductive CoreCall where
  /-- a model's last tile is finished -/
  | finishLanguageModel (modelId : Nat)
  /-- a launched model draws an id, or an address block -/
  | drawId
  | drawAddress (size : Nat)
  deriving DecidableEq, Repr

/-- What the interconnect cycle asks of the PIM backend and of SSRC. -/
inductive MemoryCall where
  | trySsrcBypass (memId : Nat) (front : MemoryAccess)
  | tryAauBypass (memId : Nat) (front : MemoryAccess)
  | onDramPush (memId : Nat) (front : MemoryAccess)
  deriving DecidableEq, Repr

/-- The calls of one iteration, as far as its domains are due. -/
structure Iteration where
  core : List CoreCall := []
  memory : List MemoryCall := []
  deriving DecidableEq, Repr

/-- The state of the loop; the coordinator, the PIM backend and SSRC are the objects the scheduler
    was handed. Periods and times are in ps. -/
structure CycleLoop where
  scheduler : SpecDecodeScheduler
  coreCycles : Nat := 0
  corePeriod : Nat
  icntPeriod : Nat
  dramPeriod : Nat
  coreTime : Nat := 0
  icntTime : Nat := 0
  dramTime : Nat := 0

/-- The call as the scheduler receives it. -/
def CoreCall.act : CoreCall → Act
  | .finishLanguageModel modelId => .finishModel modelId
  | .drawId => .drawId
  | .drawAddress size => .drawAddress size

/-- The call, in the core cycle it is made in. -/
def MemoryCall.act (npuCycle : Nat) : MemoryCall → Act
  | .trySsrcBypass memId front => .ssrcBypass memId front
  | .tryAauBypass memId front => .aauBypass memId front
  | .onDramPush memId front => .dramPush memId front npuCycle

namespace CycleLoop

/-- `set_cycle_mask`. -/
def setCycleMask (l : CycleLoop) : CycleMask × CycleLoop :=
  let minimumTime := min (min l.coreTime l.dramTime) l.icntTime
  let mask : CycleMask :=
    { core := decide (l.coreTime ≤ minimumTime)
      dram := decide (l.dramTime ≤ minimumTime)
      icnt := decide (l.icntTime ≤ minimumTime) }
  (mask,
    { l with
      coreTime := if mask.core then l.coreTime + l.corePeriod else l.coreTime
      dramTime := if mask.dram then l.dramTime + l.dramPeriod else l.dramTime
      icntTime := if mask.icnt then l.icntTime + l.icntPeriod else l.icntTime })

/-- `handle_model`, in language mode: a popped model is launched by the tiles' scheduler. -/
def handleModel (l : CycleLoop) : Option CycleLoop :=
  match l.scheduler.cycle with
  | none => none
  | some s =>
      if s.canScheduleModel then s.popModel.map fun r => { l with scheduler := r.2 }
      else some { l with scheduler := s }

/-- Calls of the scheduler, or of the objects it shares, one after the other. -/
def call (l : CycleLoop) (as : List Act) : Option CycleLoop :=
  (SpecDecodeScheduler.machine.run as l.scheduler).map fun r => { l with scheduler := r.1 }

/-- The core tick. -/
def coreTick (l : CycleLoop) (calls : List CoreCall) : Option CycleLoop :=
  match l.handleModel with
  | none => none
  | some l =>
      (l.call (calls.map CoreCall.act)).map fun l => { l with coreCycles := l.coreCycles + 1 }

/-- The interconnect cycle. -/
def icntCycle (l : CycleLoop) (calls : List MemoryCall) : Option CycleLoop :=
  l.call (calls.map (MemoryCall.act l.coreCycles))

/-- The per-cycle update of AHASD. -/
def beacon (l : CycleLoop) : CycleLoop :=
  { l with scheduler := l.scheduler.updateAhasd (·.cycleNpuWithProgress l.coreCycles) }

/-- The PIM-domain clock. -/
def pimCycle (l : CycleLoop) : CycleLoop :=
  { l with scheduler := { l.scheduler with pim := l.scheduler.pim.map (·.cycle l.coreCycles) } }

/-- One iteration. The DRAM cycle is the backend's own. -/
def iterate (l : CycleLoop) (i : Iteration) : Option CycleLoop :=
  let (mask, l) := l.setCycleMask
  match if mask.core then l.coreTick i.core else some l with
  | none => none
  | some l =>
      (if mask.icnt then l.icntCycle i.memory else some l).map fun l =>
        if mask.core then l.beacon.pimCycle else l

end CycleLoop

/-- What TVC makes of the core cycle passed to it, and the scheduler's clock at that moment. -/
structure Beacon where
  npuCycle : Nat
  npuTaskStart : Nat
  ncr : Nat
  clock : Nat
  deriving DecidableEq, Repr

namespace CycleLoop

/-- An iteration with a core tick ends with a beacon, when TVC is there. -/
def beacons (l : CycleLoop) (_ : Iteration) (l' : CycleLoop) : List Beacon :=
  if l.setCycleMask.1.core then
    (l'.scheduler.control.map fun t =>
      ⟨l'.coreCycles, t.npuTaskStart, t.ncr, l'.scheduler.cycleCount⟩).toList
  else []

/-- The loop as a machine that shows its beacons. -/
def machine : Machine CycleLoop Iteration Beacon where
  step := iterate
  obs := beacons

end CycleLoop

/-- The loop of a set-up, before its first iteration. -/
def Setup.loop (c : Setup) (icntFreq : Nat) : Option CycleLoop :=
  c.start.map fun s =>
    { scheduler := s
      corePeriod := 1000000 / c.config.coreFreq
      icntPeriod := 1000000 / icntFreq
      dramPeriod := 1000000 / c.config.dramFreq }

/-- The run of a list of iterations, with its beacons. -/
def Setup.loopRun (c : Setup) (icntFreq : Nat) (is : List Iteration) :
    Option (CycleLoop × List Beacon) :=
  (c.loop icntFreq).bind (CycleLoop.machine.run is)

/-! ## 2. The clocks of one iteration -/

namespace CycleLoop

open SpecDecodeScheduler

/-- A stretch of the loop that steps both clocks by `n`: the scheduler's part of it is a segment of
    its run. -/
structure InStep (l l' : CycleLoop) (n : Nat) : Prop where
  scheduler : Advances l.scheduler l'.scheduler n
  coreCycles : l'.coreCycles = l.coreCycles + n

section Iteration

variable {l l' l'' : CycleLoop} {n m : Nat}

theorem InStep.refl (l : CycleLoop) : InStep l l 0 := ⟨.refl _, rfl⟩

theorem InStep.trans (h : InStep l l' n) (h' : InStep l' l'' m) : InStep l l'' (n + m) :=
  ⟨h.scheduler.trans h'.scheduler, by rw [h'.coreCycles, h.coreCycles, Nat.add_assoc]⟩

/-- The scheduler's clock steps first: `_core_cycles` waits for the end of the tick. -/
theorem handleModel_advances (I : ProtocolOk l.scheduler) (h : l.handleModel = some l') :
    Advances l.scheduler l'.scheduler 1 ∧ l'.coreCycles = l.coreCycles := by
  unfold handleModel at h
  split at h
  · cases h
  · next s hcycle =>
      have hadv : Advances l.scheduler s 1 := Advances.step (a := .cycle) I hcycle
      split at h
      · obtain ⟨r, hpop, rfl⟩ := Option.map_eq_some_iff.mp h
        have hstep : SpecDecodeScheduler.machine.step s .popModel = some r.2 :=
          congrArg (Option.map Prod.snd) hpop
        exact ⟨hadv.trans (.step (hadv.protocol I) hstep), rfl⟩
      · cases h
        exact ⟨hadv, rfl⟩

theorem call_inStep {as : List Act} (I : ProtocolOk l.scheduler) (hno : .cycle ∉ as)
    (h : l.call as = some l') : InStep l l' 0 := by
  obtain ⟨⟨s, e⟩, hrun, rfl⟩ := Option.map_eq_some_iff.mp h
  exact ⟨.run I hno hrun, rfl⟩

/-- **A core tick steps both clocks once.** -/
theorem coreTick_inStep {calls : List CoreCall} (I : ProtocolOk l.scheduler)
    (h : l.coreTick calls = some l') : InStep l l' 1 := by
  unfold coreTick at h
  split at h
  · cases h
  · next l₁ hhandle =>
      obtain ⟨l₂, hcall, rfl⟩ := Option.map_eq_some_iff.mp h
      obtain ⟨hadv, hcore⟩ := handleModel_advances I hhandle
      have hno : .cycle ∉ calls.map CoreCall.act := by
        intro hmem
        obtain ⟨call, _, heq⟩ := List.mem_map.mp hmem
        cases call <;> cases heq
      have hcalls := call_inStep (hadv.protocol I) hno hcall
      refine ⟨hadv.trans hcalls.scheduler, ?_⟩
      rw [hcalls.coreCycles, hcore]

theorem icntCycle_inStep {calls : List MemoryCall} (I : ProtocolOk l.scheduler)
    (h : l.icntCycle calls = some l') : InStep l l' 0 := by
  refine call_inStep I (fun hmem => ?_) h
  obtain ⟨call, _, heq⟩ := List.mem_map.mp hmem
  cases call <;> cases heq

theorem beacon_inStep (l : CycleLoop) : InStep l l.beacon 0 :=
  ⟨.rule (.beacon l.scheduler l.coreCycles) rfl, rfl⟩

theorem pimCycle_inStep (l : CycleLoop) : InStep l l.pimCycle 0 := by
  have hrule := Rule.memory l.scheduler (·.cycle l.coreCycles) id
    (fun p => p.cycle_sameRanks l.coreCycles) .refl
  rw [Option.map_id] at hrule
  exact ⟨.rule hrule rfl, rfl⟩

/-- **What an iteration is made of**: a tick of both clocks when the core is due, the interconnect
    cycle, and then, after a tick, the beacon. -/
theorem iterate_cases {i : Iteration} (I : ProtocolOk l.scheduler) (h : l.iterate i = some l') :
    (l.setCycleMask.1.core = true ∧ ∃ l₁, InStep l l₁ 1 ∧ l' = l₁.beacon.pimCycle) ∨
      (l.setCycleMask.1.core = false ∧ InStep l l' 0) := by
  unfold iterate at h
  dsimp only at h
  have hicnt : ∀ l₁ l₂ : CycleLoop, ProtocolOk l₁.scheduler →
      (if l.setCycleMask.1.icnt = true then l₁.icntCycle i.memory else some l₁) = some l₂ →
        InStep l₁ l₂ 0 := by
    intro l₁ l₂ I₁ hrun
    split at hrun
    · exact icntCycle_inStep I₁ hrun
    · cases hrun
      exact .refl l₁
  split at h
  · cases h
  · next l₁ htick =>
      obtain ⟨l₂, hrun, heq⟩ := Option.map_eq_some_iff.mp h
      cases hcore : l.setCycleMask.1.core with
      | true =>
          rw [hcore, if_pos rfl] at htick heq
          have hstep : InStep l.setCycleMask.2 l₁ 1 := coreTick_inStep I htick
          have hboth := hstep.trans (hicnt l₁ l₂ (hstep.scheduler.protocol I) hrun)
          exact .inl ⟨rfl, l₂, ⟨hboth.scheduler, hboth.coreCycles⟩, heq.symm⟩
      | false =>
          rw [hcore, if_neg Bool.false_ne_true] at htick heq
          cases htick
          cases heq
          have hstep := hicnt l.setCycleMask.2 l' I hrun
          exact .inr ⟨rfl, hstep.scheduler, hstep.coreCycles⟩

end Iteration

/-! ## 3. The clocks of a run -/

/-- The clocks show the same, and the NPU's task started by then; TVC is there when the set-up
    enables it. -/
structure Synced (c : Setup) (l : CycleLoop) : Prop where
  protocol : ProtocolOk l.scheduler
  clocks : l.scheduler.cycleCount = l.coreCycles
  started : StartedBefore l.scheduler
  tvc : l.scheduler.registers.isSome = (c.config.enableAhasd && c.config.enableTvc)

theorem Synced.inStep {c : Setup} {l l' : CycleLoop} {n : Nat} (S : Synced c l)
    (h : InStep l l' n) : Synced c l' where
  protocol := h.scheduler.protocol S.protocol
  clocks := by rw [h.scheduler.clock, h.coreCycles, S.clocks]
  started := h.scheduler.startedBefore S.started
  tvc := h.scheduler.registers_isSome.trans S.tvc

theorem Synced.control {c : Setup} {l : CycleLoop} (S : Synced c l)
    (hahasd : c.config.enableAhasd = true) (htvc : c.config.enableTvc = true) :
    ∃ t, l.scheduler.control = some t := by
  have hsome := S.tvc
  rw [hahasd, htvc] at hsome
  unfold registers at hsome
  rw [Option.isSome_map] at hsome
  exact Option.isSome_iff_exists.mp hsome

end CycleLoop

/-- TVC's subtraction does not wrap: the cycle passed is the scheduler's own, and the start is not
    after it. -/
structure Beacon.Unwrapped (b : Beacon) : Prop where
  lockStep : b.npuCycle = b.clock
  started : b.npuTaskStart ≤ b.npuCycle
  elapsed : b.ncr = (b.npuCycle - b.npuTaskStart) % 2 ^ 64

namespace CycleLoop

open SpecDecodeScheduler

/-- **The beacon of a synced loop.** -/
theorem Synced.beacon {c : Setup} {l : CycleLoop} (S : Synced c l) {t : TVC}
    (ht : l.beacon.scheduler.control = some t) :
    Beacon.Unwrapped ⟨l.coreCycles, t.npuTaskStart, t.ncr, l.scheduler.cycleCount⟩ := by
  have hregisters : l.beacon.scheduler.registers = some t.registers :=
    congrArg (Option.map TVC.registers) ht
  unfold CycleLoop.beacon at hregisters
  rw [beacon_registers] at hregisters
  obtain ⟨r, hr, heq⟩ := Option.map_eq_some_iff.mp hregisters
  obtain ⟨hstart, hncr⟩ := Prod.mk.inj heq
  have hle : t.npuTaskStart ≤ l.coreCycles := by
    rw [← hstart, ← S.clocks]
    exact S.started r hr
  refine ⟨S.clocks.symm, hle, ?_⟩
  calc t.ncr = (l.coreCycles + 2 ^ 64 - t.npuTaskStart) % 2 ^ 64 := by rw [← hncr, hstart]
    _ = (l.coreCycles - t.npuTaskStart + 2 ^ 64) % 2 ^ 64 := by rw [Nat.sub_add_comm hle]
    _ = (l.coreCycles - t.npuTaskStart) % 2 ^ 64 := Nat.add_mod_right _ _

/-- **The invariant of a run** from `l₀`: a step of the scheduler's clock for each core cycle, no
    beacon that wraps, and with TVC enabled a beacon for each core cycle. -/
structure LockStep (c : Setup) (l₀ l : CycleLoop) (h : List Beacon) : Prop where
  inStep : InStep l₀ l l.coreCycles
  unwrapped : ∀ b ∈ h, b.Unwrapped
  passed : c.config.enableAhasd = true → c.config.enableTvc = true →
    h.map Beacon.npuCycle = List.range' 1 l.coreCycles

theorem LockStep.iterate {c : Setup} {l₀ l l' : CycleLoop} {h : List Beacon} {i : Iteration}
    (S₀ : Synced c l₀) (L : LockStep c l₀ l h) (hi : l.iterate i = some l') :
    LockStep c l₀ l' (h ++ l.beacons i l') := by
  have S := S₀.inStep L.inStep
  rcases iterate_cases S.protocol hi with ⟨hcore, l₁, htick, rfl⟩ | ⟨hcore, hstay⟩
  · have hend := l₁.beacon_inStep.trans l₁.beacon.pimCycle_inStep
    have hcycles : l₁.beacon.pimCycle.coreCycles = l.coreCycles + 1 :=
      hend.coreCycles.trans htick.coreCycles
    have S₁ := S.inStep htick
    unfold beacons
    rw [if_pos hcore]
    refine ⟨?_, fun b hb => ?_, fun hahasd htvc => ?_⟩
    · rw [hcycles]
      exact (L.inStep.trans htick).trans hend
    · rcases List.mem_append.mp hb with hb | hb
      · exact L.unwrapped b hb
      · obtain ⟨t, ht, rfl⟩ := Option.map_eq_some_iff.mp (Option.mem_toList.mp hb)
        exact S₁.beacon ht
    · obtain ⟨t, ht⟩ := (S₁.inStep hend).control hahasd htvc
      rw [List.map_append, L.passed hahasd htvc, ht, hcycles, List.range'_1_concat,
        Nat.add_comm 1]
      rfl
  · have hcycles : l'.coreCycles = l.coreCycles := hstay.coreCycles
    unfold beacons
    rw [hcore, if_neg Bool.false_ne_true, List.append_nil]
    refine ⟨?_, L.unwrapped, ?_⟩
    · rw [hcycles]
      exact L.inStep.trans hstay
    · rw [hcycles]
      exact L.passed

end CycleLoop

section

open SpecDecodeScheduler

variable {c : Setup} {icntFreq : Nat}

/-- The registers at the start of a run. -/
theorem Setup.start_registers {s : SpecDecodeScheduler} (h : c.start = some s) :
    s.registers =
      if c.config.enableAhasd && c.config.enableTvc then some (0, 0) else none := by
  unfold registers SpecDecodeScheduler.control
  rw [(Setup.start_fresh h).ahasd]
  unfold Setup.ahasd AHASDIntegration.new SimulationConfig.toAHASDConfig
  cases c.config.enableAhasd <;> cases c.config.enableTvc <;>
    simp [AHASDIntegration.control, TVC.registers, TVC.new]

theorem Setup.loop_synced (ht : c.targetModel.isSome = true) {l₀ : CycleLoop}
    (h : c.loop icntFreq = some l₀) : l₀.Synced c ∧ l₀.coreCycles = 0 := by
  obtain ⟨s, hstart, rfl⟩ := Option.map_eq_some_iff.mp h
  have hregisters := Setup.start_registers hstart
  refine ⟨⟨(Setup.start_fresh hstart).protocolOk ht, (Setup.start_base hstart).2.1, ?_, ?_⟩, rfl⟩
  · intro r hr
    rw [hregisters] at hr
    split at hr <;> cases hr
    exact Nat.zero_le _
  · rw [hregisters]
    cases c.config.enableAhasd && c.config.enableTvc <;> rfl

/-- **A run of the loop is a run of the scheduler**, with one step of its clock a core cycle. -/
theorem Setup.loopRun_lockStep (ht : c.targetModel.isSome = true) {is : List Iteration}
    {l : CycleLoop} {h : List Beacon} (hrun : c.loopRun icntFreq is = some (l, h)) :
    ∃ l₀, c.loop icntFreq = some l₀ ∧ l₀.LockStep c l h := by
  obtain ⟨l₀, hloop, hrun⟩ := Option.bind_eq_some_iff.mp hrun
  obtain ⟨S₀, hzero⟩ := Setup.loop_synced ht hloop
  have hfirst : CycleLoop.LockStep c l₀ l₀ [] := by
    refine ⟨?_, nofun, fun _ _ => ?_⟩
    · rw [hzero]
      exact .refl l₀
    · rw [hzero]
      rfl
  exact ⟨l₀, hloop, (exec_of_run hrun).invariant hfirst fun _ _ _ _ L hs => L.iterate S₀ hs⟩

/-- **TVC's subtraction never wraps**: with a target model attached `_cycle` and `_core_cycles` show
    the same after every iteration, and every beacon passes the scheduler's own cycle, which the
    start of the NPU's task is not after. With TVC enabled there is a beacon in every core tick. -/
theorem npu_progress_never_wraps (ht : c.targetModel.isSome = true) {is : List Iteration}
    {l : CycleLoop} {h : List Beacon} (hrun : c.loopRun icntFreq is = some (l, h)) :
    l.scheduler.cycleCount = l.coreCycles ∧ (∀ b ∈ h, b.Unwrapped) ∧
      (c.config.enableAhasd = true → c.config.enableTvc = true →
        h.map Beacon.npuCycle = List.range' 1 l.coreCycles) := by
  obtain ⟨l₀, hloop, L⟩ := Setup.loopRun_lockStep ht hrun
  obtain ⟨S₀, _⟩ := Setup.loop_synced ht hloop
  exact ⟨(S₀.inStep L.inStep).clocks, L.unwrapped, L.passed⟩

/-- Drafts of three tokens. -/
def oneVerification : Setup :=
  let c := sampleSetup [⟨0, 4, 9, 1⟩] []
  { c with config := { c.config with enableEdc := false } }

/-- The prompt and three drafts, each finished in the core tick after its issue, and two core ticks
    more. -/
def draftedIterations : List Iteration :=
  [{}, { core := [.finishLanguageModel 2] }, {}, {}, {}, { core := [.finishLanguageModel 3] }, {},
    {}, { core := [.finishLanguageModel 4] }, {}, {}, { core := [.finishLanguageModel 5] }, {}, {},
    {}, {}]

/-- The verification is decided on in cycle 9; the beacon of cycle 10 finds its start behind it. -/
theorem npu_progress_never_wraps_sample : ∃ l h,
    oneVerification.loopRun 1000 draftedIterations = some (l, h) ∧
      l.scheduler.cycleCount = l.coreCycles ∧ (∀ b ∈ h, b.Unwrapped) ∧
      h.map Beacon.npuCycle = List.range' 1 l.coreCycles ∧
      (⟨10, 9, 1, 10⟩ : Beacon) ∈ h := by
  have hfacts : ((oneVerification.loopRun 1000 draftedIterations).any fun r =>
      decide ((⟨10, 9, 1, 10⟩ : Beacon) ∈ r.2)) = true := by decide +kernel
  obtain ⟨⟨l, h⟩, hrun, hfacts⟩ := (Option.any_eq_true _ _).mp hfacts
  obtain ⟨hclocks, hunwrapped, hpassed⟩ := npu_progress_never_wraps rfl hrun
  exact ⟨l, h, hrun, hclocks, hunwrapped, hpassed rfl rfl, of_decide_eq_true hfacts⟩

end

end Ahasd
