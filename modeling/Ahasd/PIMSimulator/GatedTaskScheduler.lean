/-
  File:      Ahasd/PIMSimulator/GatedTaskScheduler.lean
  Subject:   THE GATED TASK SCHEDULER OF A PIM RANK (GatedTaskScheduler.h, PIMRank.cpp).

  One array of ranks serves two kinds of tasks: all ranks but the last draft, the last one
  pre-verifies, and gating enables one side at a time. A task is started from two places: at once,
  when its side is enabled, or at the end of a delayed switch.

  * `submitTask`, `scheduleNextTask`, `initiateTaskSwitch`, `startTask`, `update`: the operations;
  * `schedule_cases`, `update_cases`: what a call can do;
  * `machine`: their interleavings; `PIMRank`, `PIMRank.machine`: the rank that drives them;
  * `GatingOk`: the invariant, with the side that is enabled as its parameter;
  * **`gating_safe`**: what it says of every reachable state; `PIMRank.scheduler_reached`: the
    rank's scheduler is in such a state.
-/
import Mathlib.Data.Rat.Floor
import Ahasd.Lib.Transition

namespace Ahasd.PIMSimulator

open Transition

/-! ## 1. The scheduler -/

/-- `PIMTaskType`. -/
inductive PIMTaskType where
  | idle
  | drafting
  | preVerification
  deriving DecidableEq, Repr

/-- `TaskDescriptor`. -/
structure TaskDescriptor where
  type : PIMTaskType := .idle
  rankId : Nat := 0
  batchSize : Nat := 0
  startCycle : Nat := 0
  estimatedCycles : Nat := 0
  completed : Bool := false
  deriving DecidableEq, Repr

/-- `RankState`. -/
structure RankState where
  enabled : Bool := false
  busy : Bool := false
  currentTask : PIMTaskType := .idle
  remainingCycles : Nat := 0
  deriving DecidableEq, Repr

namespace RankState

/-- A rank that takes up a task: `remaining_cycles` has 32 bits. -/
def take (task : TaskDescriptor) (r : RankState) : RankState :=
  { r with
    busy := true
    currentTask := task.type
    remainingCycles := task.estimatedCycles % 2 ^ 32 }

/-- The rank works on its task in this cycle. -/
def working (r : RankState) : Bool :=
  r.busy && decide (0 < r.remainingCycles)

/-- One cycle of a rank: a busy rank works, or is done. -/
def tick (r : RankState) : RankState :=
  if r.busy then
    if r.remainingCycles > 0 then { r with remainingCycles := r.remainingCycles - 1 }
    else { r with busy := false, currentTask := .idle }
  else r

theorem tick_enabled (r : RankState) : r.tick.enabled = r.enabled := by
  unfold tick
  split
  · split <;> rfl
  · rfl

/-- After its cycle a rank is busy when it worked in it. -/
theorem tick_busy (r : RankState) : r.tick.busy = r.working := by
  unfold tick working
  split
  · next hbusy =>
      split
      · next hleft => simp [hbusy, hleft]
      · next hdone => simp [hbusy, hdone]
  · next hidle => simp [hidle]

end RankState

/-- `GatedTaskScheduler`. `active_task_` always points at the front of the queue: the model keeps
    whether it is set. -/
structure GatedTaskScheduler where
  numRanks : Nat
  rankStates : List RankState
  pendingTasks : List TaskDescriptor := []
  activeTask : Bool := false
  draftingRank : Nat := 0
  verificationRank : Nat
  switchLatencyCycles : Nat := 1
  currentSwitchDelay : Nat := 0
  switching : Bool := false
  totalSwitches : Nat := 0
  draftingCycles : Nat := 0
  verificationCycles : Nat := 0
  idleCycles : Nat := 0
  switchOverheadCycles : Nat := 0
  totalCycles : Nat := 0
  totalSwitchEnergyNj : ℚ := 0

namespace GatedTaskScheduler

/-- The constructor: the drafting ranks are enabled, the last one is reserved. -/
def new (numRanks : Nat) : GatedTaskScheduler where
  numRanks := numRanks
  rankStates := (List.range numRanks).map fun i => { enabled := decide (i < numRanks - 1) }
  verificationRank := numRanks - 1

/-- The loop over the drafting ranks. -/
def onDraftingRanks (s : GatedTaskScheduler) (f : RankState → RankState) : GatedTaskScheduler :=
  { s with rankStates := s.rankStates.mapIdx fun i r => if i < s.numRanks - 1 then f r else r }

/-- The access to the verification rank. -/
def onVerificationRank (s : GatedTaskScheduler) (f : RankState → RankState) : GatedTaskScheduler :=
  { s with rankStates := s.rankStates.modify s.verificationRank f }

/-- `submit_task`. -/
def submitTask (s : GatedTaskScheduler) (type : PIMTaskType) (batchSize estimatedCycles : Nat) :
    Bool × GatedTaskScheduler :=
  let task : TaskDescriptor :=
    { type := type, batchSize := batchSize, estimatedCycles := estimatedCycles }
  (true, { s with pendingTasks := s.pendingTasks ++ [task] })

/-- `initiate_task_switch`. -/
def initiateTaskSwitch (s : GatedTaskScheduler) (target : PIMTaskType) : GatedTaskScheduler :=
  let s := { s with
    switching := true
    currentSwitchDelay := s.switchLatencyCycles
    totalSwitches := s.totalSwitches + 1
    totalSwitchEnergyNj := s.totalSwitchEnergyNj + 5 / 100 }
  if target = .preVerification then
    (s.onDraftingRanks ({ · with enabled := false })).onVerificationRank ({ · with enabled := true })
  else
    (s.onDraftingRanks ({ · with enabled := true })).onVerificationRank ({ · with enabled := false })

/-- `start_task`, for the front of the queue. -/
def startTask (s : GatedTaskScheduler) (task : TaskDescriptor) (currentCycle : Nat) :
    GatedTaskScheduler :=
  let s := { s with
    pendingTasks := s.pendingTasks.modifyHead ({ · with startCycle := currentCycle })
    activeTask := true }
  match task.type with
  | .drafting => s.onDraftingRanks (RankState.take task)
  | .preVerification => s.onVerificationRank (RankState.take task)
  | .idle => s

/-- A rank is enabled. -/
def rankEnabled (s : GatedTaskScheduler) (rank : Nat) : Bool :=
  (s.rankStates[rank]?).any (·.enabled)

/-- The test of `schedule_next_task`: the side of the task is disabled. -/
def needSwitch (s : GatedTaskScheduler) (task : TaskDescriptor) : Bool :=
  match task.type with
  | .preVerification => !s.rankEnabled s.verificationRank
  | .drafting => !s.rankEnabled s.draftingRank
  | .idle => false

/-- `schedule_next_task`. -/
def scheduleNextTask (s : GatedTaskScheduler) (currentCycle : Nat) : Bool × GatedTaskScheduler :=
  if s.activeTask || s.switching then (false, s)
  else
    match s.pendingTasks with
    | [] => (false, s)
    | next :: _ =>
        if s.needSwitch next then (true, s.initiateTaskSwitch next.type)
        else (true, s.startTask next currentCycle)

/-- The ranks that work on a task of the type in this cycle. -/
def workingOn (s : GatedTaskScheduler) (type : PIMTaskType) : Nat :=
  s.rankStates.countP fun r => r.working && r.currentTask == type

/-- `update`. -/
def update (s : GatedTaskScheduler) : GatedTaskScheduler :=
  let s := { s with totalCycles := s.totalCycles + 1 }
  if s.switching then
    if s.currentSwitchDelay > 0 then
      { s with
        currentSwitchDelay := s.currentSwitchDelay - 1
        switchOverheadCycles := s.switchOverheadCycles + 1 }
    else
      let s := { s with switching := false }
      match s.pendingTasks with
      | [] => s
      | front :: _ => s.startTask front s.totalCycles
  else if s.activeTask then
    let taskDone := !s.rankStates.any RankState.working
    let s := { s with
      rankStates := s.rankStates.map RankState.tick
      draftingCycles := s.draftingCycles + s.workingOn .drafting
      verificationCycles := s.verificationCycles + s.workingOn .preVerification }
    if taskDone then { s with activeTask := false, pendingTasks := s.pendingTasks.drop 1 } else s
  else { s with idleCycles := s.idleCycles + 1 }

/-- `is_busy`. -/
def isBusy (s : GatedTaskScheduler) : Bool := s.activeTask || s.switching

/-- `can_accept_task`. -/
def canAcceptTask (s : GatedTaskScheduler) : Bool := decide (s.pendingTasks.length < 8)

/-- The calls on the scheduler: a task is a drafting or a pre-verification. -/
inductive Act where
  | submit (type : PIMTaskType) (htype : type ≠ .idle) (batchSize estimatedCycles : Nat)
  | schedule (currentCycle : Nat)
  | update

/-- One call. -/
def step (s : GatedTaskScheduler) : Act → GatedTaskScheduler
  | .submit type _ batchSize estimatedCycles => (s.submitTask type batchSize estimatedCycles).2
  | .schedule currentCycle => (s.scheduleNextTask currentCycle).2
  | .update => s.update

/-- The scheduler as a machine. -/
def machine : Machine GatedTaskScheduler Act Unit where
  step s a := some (s.step a)
  obs _ _ _ := []

/-! ## 2. What a call can do -/

theorem startTask_fields (s : GatedTaskScheduler) (task : TaskDescriptor) (currentCycle : Nat) :
    (s.startTask task currentCycle).pendingTasks =
        s.pendingTasks.modifyHead ({ · with startCycle := currentCycle }) ∧
      (s.startTask task currentCycle).activeTask = true ∧
      (s.startTask task currentCycle).switchLatencyCycles = s.switchLatencyCycles ∧
      (s.startTask task currentCycle).numRanks = s.numRanks := by
  unfold startTask
  dsimp only
  split <;> exact ⟨rfl, rfl, rfl, rfl⟩

theorem initiateTaskSwitch_fields (s : GatedTaskScheduler) (target : PIMTaskType) :
    (s.initiateTaskSwitch target).pendingTasks = s.pendingTasks ∧
      (s.initiateTaskSwitch target).activeTask = s.activeTask ∧
      (s.initiateTaskSwitch target).switching = true ∧
      (s.initiateTaskSwitch target).currentSwitchDelay = s.switchLatencyCycles ∧
      (s.initiateTaskSwitch target).switchLatencyCycles = s.switchLatencyCycles ∧
      (s.initiateTaskSwitch target).numRanks = s.numRanks := by
  unfold initiateTaskSwitch
  dsimp only
  split <;> exact ⟨rfl, rfl, rfl, rfl, rfl, rfl⟩

/-- **What `schedule_next_task` can do**: nothing, or start the front of the queue, or the switch to
    its side. -/
theorem schedule_cases (s : GatedTaskScheduler) (currentCycle : Nat) :
    ((s.scheduleNextTask currentCycle).2 = s ∧ (s.isBusy = true ∨ s.pendingTasks = [])) ∨
      ∃ t rest, s.pendingTasks = t :: rest ∧ s.activeTask = false ∧ s.switching = false ∧
        (s.needSwitch t = true ∧ (s.scheduleNextTask currentCycle).2 = s.initiateTaskSwitch t.type ∨
          s.needSwitch t = false ∧ (s.scheduleNextTask currentCycle).2 = s.startTask t currentCycle) := by
  unfold scheduleNextTask
  split
  · next hbusy => exact .inl ⟨rfl, .inl hbusy⟩
  · next hfree =>
      rw [Bool.or_eq_true, not_or, Bool.not_eq_true, Bool.not_eq_true] at hfree
      split
      · next hq => exact .inl ⟨rfl, .inr hq⟩
      · next t rest hq =>
          refine .inr ⟨t, rest, hq, hfree.1, hfree.2, ?_⟩
          split
          · next hswitch => exact .inl ⟨hswitch, rfl⟩
          · next hstay => exact .inr ⟨Bool.not_eq_true _ ▸ hstay, rfl⟩

/-- The call leaves the ranks, the queue and the active task as they are. -/
structure Leaves (s s' : GatedTaskScheduler) : Prop where
  ranks : s'.rankStates = s.rankStates
  num : s'.numRanks = s.numRanks
  last : s'.verificationRank = s.verificationRank
  queue : s'.pendingTasks = s.pendingTasks
  active : s'.activeTask = s.activeTask
  latency : s'.switchLatencyCycles = s.switchLatencyCycles

/-- A cycle of an active task: all ranks tick, and the task is done when none of them worked. -/
structure Ticks (s s' : GatedTaskScheduler) : Prop where
  ranks : s'.rankStates = s.rankStates.map RankState.tick
  num : s'.numRanks = s.numRanks
  last : s'.verificationRank = s.verificationRank
  queue : s'.pendingTasks =
    if s.rankStates.any RankState.working then s.pendingTasks else s.pendingTasks.drop 1
  active : s'.activeTask = s.rankStates.any RankState.working
  latency : s'.switchLatencyCycles = s.switchLatencyCycles
  switching : s'.switching = false

/-- **What `update` can do**: count a cycle of the switch down, end it and start the front of the
    queue, run the active task, or idle. -/
theorem update_cases (s : GatedTaskScheduler) :
    (s.switching = true ∧ Leaves s s.update ∧ s.update.switching = true ∧
        s.update.currentSwitchDelay + 1 = s.currentSwitchDelay) ∨
      (s.switching = true ∧ ∃ t, Leaves s t ∧ t.switching = false ∧
        s.update = match s.pendingTasks with
          | [] => t
          | front :: _ => t.startTask front t.totalCycles) ∨
      (s.switching = false ∧ s.activeTask = true ∧ Ticks s s.update) ∨
      (s.switching = false ∧ s.activeTask = false ∧ Leaves s s.update ∧
        s.update.switching = false) := by
  unfold update
  dsimp only
  split
  · next hswitch =>
      split
      · next hdelay =>
          exact .inl ⟨hswitch, ⟨rfl, rfl, rfl, rfl, rfl, rfl⟩, hswitch, Nat.sub_add_cancel hdelay⟩
      · exact .inr (.inl ⟨hswitch, { s with totalCycles := s.totalCycles + 1, switching := false },
          ⟨rfl, rfl, rfl, rfl, rfl, rfl⟩, rfl, rfl⟩)
  · next hswitch =>
      rw [Bool.not_eq_true] at hswitch
      split
      · next hactive =>
          refine .inr (.inr (.inl ⟨hswitch, hactive, ?_⟩))
          cases hworks : s.rankStates.any RankState.working with
          | true =>
              exact ⟨rfl, rfl, rfl, by rw [hworks]; rfl, hactive.trans hworks.symm, rfl, hswitch⟩
          | false => exact ⟨rfl, rfl, rfl, by rw [hworks]; rfl, hworks.symm, rfl, hswitch⟩
      · next hactive =>
          rw [Bool.not_eq_true] at hactive
          exact .inr (.inr (.inr ⟨hswitch, hactive, ⟨rfl, rfl, rfl, rfl, rfl, rfl⟩, hswitch⟩))

/-! ## 3. The two sides -/

/-- The kind of task a rank is for. -/
def side (s : GatedTaskScheduler) (rank : Nat) : PIMTaskType :=
  if rank < s.numRanks - 1 then .drafting else .preVerification

/-- The ranks, the reserved ones and the queue are as the constructor made them: the two sides
    partition the ranks, and each has one. -/
structure Shaped (s : GatedTaskScheduler) : Prop where
  ranks : 2 ≤ s.numRanks
  length : s.rankStates.length = s.numRanks
  drafting : s.draftingRank = 0
  verification : s.verificationRank = s.numRanks - 1
  tasks : ∀ t ∈ s.pendingTasks, t.type ≠ .idle

section Sides

variable (s : GatedTaskScheduler)

theorem side_ne_idle (i : Nat) : s.side i ≠ .idle := by
  unfold side
  split <;> simp

/-- What the accesses to one or both sides leave behind: only the ranks change, each as its side
    says. -/
structure RanksBy (f : Nat → RankState → RankState) (s s' : GatedTaskScheduler) : Prop where
  frame : ∃ ranks, s' = { s with rankStates := ranks } ∧ ranks.length = s.rankStates.length
  get : ∀ i : Nat, s'.rankStates[i]? = (s.rankStates[i]?).map (f i)

theorem onDraftingRanks_by (f : RankState → RankState) :
    RanksBy (fun i r => if s.side i = .drafting then f r else r) s (s.onDraftingRanks f) := by
  refine ⟨⟨_, rfl, List.length_mapIdx ..⟩, fun i => ?_⟩
  unfold onDraftingRanks side
  rw [List.getElem?_mapIdx]
  by_cases hi : i < s.numRanks - 1 <;> simp [hi]

theorem onVerificationRank_by (hlength : s.rankStates.length = s.numRanks)
    (hverify : s.verificationRank = s.numRanks - 1) (f : RankState → RankState) :
    RanksBy (fun i r => if s.side i = .preVerification then f r else r) s
      (s.onVerificationRank f) := by
  refine ⟨⟨_, rfl, List.length_modify ..⟩, fun i => ?_⟩
  unfold onVerificationRank side
  rw [List.getElem?_modify, hverify]
  by_cases hi : i < s.numRanks
  · by_cases hlast : s.numRanks - 1 = i
    · rw [if_neg (by omega)]
      simp [hlast]
    · rw [if_pos (by omega)]
      simp [hlast]
  · rw [List.getElem?_eq_none (by omega)]
    rfl

/-- Both sides, one after the other. -/
theorem onBothSides_by (hlength : s.rankStates.length = s.numRanks)
    (hverify : s.verificationRank = s.numRanks - 1) (f g : RankState → RankState) :
    RanksBy (fun i r => if s.side i = .drafting then f r else g r) s
      ((s.onDraftingRanks f).onVerificationRank g) := by
  have hdraft := s.onDraftingRanks_by f
  have hlast := (s.onDraftingRanks f).onVerificationRank_by
    ((List.length_mapIdx ..).trans hlength) hverify g
  refine ⟨⟨_, rfl, (List.length_modify ..).trans (List.length_mapIdx ..)⟩, fun i => ?_⟩
  rw [hlast.get, hdraft.get, Option.map_map]
  refine Option.map_congr fun r _ => ?_
  have hne := s.side_ne_idle i
  show (if s.side i = .preVerification then g _ else _) = _
  cases hs : s.side i with
  | idle => exact absurd hs hne
  | drafting => simp
  | preVerification => simp

/-- A switch enables the ranks of its side, and no others. -/
theorem initiateTaskSwitch_by (S : Shaped s) {target : PIMTaskType} (htarget : target ≠ .idle) :
    RanksBy (fun i r => { r with enabled := decide (s.side i = target) })
      { s with
        switching := true
        currentSwitchDelay := s.switchLatencyCycles
        totalSwitches := s.totalSwitches + 1
        totalSwitchEnergyNj := s.totalSwitchEnergyNj + 5 / 100 }
      (s.initiateTaskSwitch target) := by
  have hboth := onBothSides_by { s with
    switching := true
    currentSwitchDelay := s.switchLatencyCycles
    totalSwitches := s.totalSwitches + 1
    totalSwitchEnergyNj := s.totalSwitchEnergyNj + 5 / 100 } S.length S.verification
  unfold initiateTaskSwitch
  cases target with
  | idle => exact absurd rfl htarget
  | drafting =>
      have hdraft := hboth ({ · with enabled := true }) ({ · with enabled := false })
      refine ⟨hdraft.frame, fun i => (hdraft.get i).trans (Option.map_congr fun r _ => ?_)⟩
      show (if s.side i = .drafting then _ else _) = _
      split <;> simp [*]
  | preVerification =>
      have hverify := hboth ({ · with enabled := false }) ({ · with enabled := true })
      refine ⟨hverify.frame, fun i => (hverify.get i).trans (Option.map_congr fun r _ => ?_)⟩
      have hne := s.side_ne_idle i
      show (if s.side i = .drafting then _ else _) = _
      cases hs : s.side i with
      | idle => exact absurd hs hne
      | drafting => rfl
      | preVerification => rfl

/-- A task is taken up by the ranks of its side. -/
theorem startTask_by (S : Shaped s) {task : TaskDescriptor} (htask : task.type ≠ .idle)
    (currentCycle : Nat) :
    RanksBy (fun i r => if s.side i = task.type then r.take task else r)
      { s with
        pendingTasks := s.pendingTasks.modifyHead ({ · with startCycle := currentCycle })
        activeTask := true }
      (s.startTask task currentCycle) := by
  have hdraft := onDraftingRanks_by { s with
    pendingTasks := s.pendingTasks.modifyHead ({ · with startCycle := currentCycle })
    activeTask := true } (RankState.take task)
  have hverify := onVerificationRank_by { s with
    pendingTasks := s.pendingTasks.modifyHead ({ · with startCycle := currentCycle })
    activeTask := true } S.length S.verification (RankState.take task)
  unfold startTask
  cases hty : task.type with
  | idle => exact absurd hty htask
  | drafting => exact hdraft
  | preVerification => exact hverify

end Sides

/-! ## 4. The invariant -/

/-- **The invariant**, for the kind of task whose side is enabled: the ranks of that side are
    enabled and no others, a busy rank is one of them and works for the active task, and a switch to
    that side waits for the task at the front of the queue. -/
structure GatingOk (s : GatedTaskScheduler) (mode : PIMTaskType) : Prop extends Shaped s where
  sided : mode ≠ .idle
  enabled : ∀ (i : Nat) (r : RankState), s.rankStates[i]? = some r →
    r.enabled = decide (s.side i = mode)
  busy : ∀ (i : Nat) (r : RankState), s.rankStates[i]? = some r → r.busy = true →
    s.activeTask = true ∧ s.side i = mode
  switching : s.switching = true → s.activeTask = false ∧
    ∃ t rest, s.pendingTasks = t :: rest ∧ t.type = mode

theorem new_gatingOk {numRanks : Nat} (h : 2 ≤ numRanks) : GatingOk (new numRanks) .drafting := by
  have hget : ∀ (i : Nat) (r : RankState), (new numRanks).rankStates[i]? = some r →
      r = { enabled := decide (i < numRanks - 1) } := by
    intro i r hr
    unfold new at hr
    rw [List.getElem?_map] at hr
    obtain ⟨j, hj, rfl⟩ := Option.map_eq_some_iff.mp hr
    rw [List.getElem?_eq_some_iff] at hj
    obtain ⟨_, rfl⟩ := hj
    rw [List.getElem_range]
  refine ⟨⟨h, by simp [new], rfl, rfl, fun _ ht => absurd ht List.not_mem_nil⟩, by decide, ?_, ?_, ?_⟩
  · intro i r hr
    rw [hget i r hr]
    unfold side new
    dsimp only
    split <;> simp [*]
  · intro i r hr hbusy
    rw [hget i r hr] at hbusy
    cases hbusy
  · intro hswitch
    cases hswitch

section Calls

variable {s : GatedTaskScheduler} {mode : PIMTaskType} (G : GatingOk s mode)

include G

theorem GatingOk.submitTask {type : PIMTaskType} (htype : type ≠ .idle) (batchSize cycles : Nat) :
    GatingOk (s.submitTask type batchSize cycles).2 mode := by
  refine ⟨⟨G.ranks, G.length, G.drafting, G.verification, fun t ht => ?_⟩, G.sided, G.enabled,
    G.busy, fun hswitch => ?_⟩
  · rcases List.mem_append.mp ht with ht | ht
    · exact G.tasks t ht
    · rw [List.mem_singleton.mp ht]
      exact htype
  · obtain ⟨hactive, t, rest, hq, hty⟩ := G.switching hswitch
    refine ⟨hactive, t, rest ++ [⟨type, 0, batchSize, 0, cycles, false⟩], ?_, hty⟩
    unfold GatedTaskScheduler.submitTask
    dsimp only
    rw [hq, List.cons_append]

/-- Without an active task no rank is busy. -/
theorem GatingOk.no_busy (hactive : s.activeTask = false) {i : Nat} {r : RankState}
    (hr : s.rankStates[i]? = some r) : r.busy = false := by
  cases hb : r.busy with
  | false => rfl
  | true =>
      have h := (G.busy i r hr hb).1
      rw [hactive] at h
      cases h

/-- **The switch**: the other side is enabled while nothing runs. -/
theorem GatingOk.initiateTaskSwitch (hactive : s.activeTask = false) {t : TaskDescriptor}
    {rest : List TaskDescriptor} (hq : s.pendingTasks = t :: rest) :
    GatingOk (s.initiateTaskSwitch t.type) t.type := by
  have htype : t.type ≠ .idle := G.tasks t (by rw [hq]; exact List.mem_cons_self)
  have hby := s.initiateTaskSwitch_by G.toShaped htype
  obtain ⟨ranks, hframe, hlength⟩ := hby.frame
  have hget := hby.get
  rw [hframe] at hget ⊢
  refine ⟨⟨G.ranks, hlength.trans G.length, G.drafting, G.verification, G.tasks⟩, htype, ?_, ?_, ?_⟩
  · intro i r hr
    obtain ⟨r₀, _, rfl⟩ := Option.map_eq_some_iff.mp ((hget i).symm.trans hr)
    rfl
  · intro i r hr hbusy
    obtain ⟨r₀, hr₀, rfl⟩ := Option.map_eq_some_iff.mp ((hget i).symm.trans hr)
    have hidle := G.no_busy hactive hr₀
    rw [show r₀.busy = true from hbusy] at hidle
    cases hidle
  · exact fun _ => ⟨hactive, t, rest, hq, rfl⟩

/-- **The start of a task** whose side is enabled. -/
theorem GatingOk.startTask (hswitch : s.switching = false) {t : TaskDescriptor}
    {rest : List TaskDescriptor} (hq : s.pendingTasks = t :: rest) (hty : t.type = mode)
    (currentCycle : Nat) : GatingOk (s.startTask t currentCycle) mode := by
  have hby := s.startTask_by G.toShaped (hty ▸ G.sided) currentCycle
  obtain ⟨ranks, hframe, hlength⟩ := hby.frame
  have hget := hby.get
  rw [hframe] at hget ⊢
  refine ⟨⟨G.ranks, hlength.trans G.length, G.drafting, G.verification, ?_⟩, G.sided, ?_, ?_, ?_⟩
  · have htasks := G.tasks
    rw [hq] at htasks
    intro u hu
    rw [show List.modifyHead _ s.pendingTasks = List.modifyHead _ (t :: rest) by rw [hq]] at hu
    rcases List.mem_cons.mp hu with rfl | hu
    · exact htasks t List.mem_cons_self
    · exact htasks u (List.mem_cons_of_mem _ hu)
  · intro i r hr
    obtain ⟨r₀, hr₀, rfl⟩ := Option.map_eq_some_iff.mp ((hget i).symm.trans hr)
    have henabled := G.enabled i r₀ hr₀
    split <;> exact henabled
  · intro i r hr hbusy
    obtain ⟨r₀, hr₀, rfl⟩ := Option.map_eq_some_iff.mp ((hget i).symm.trans hr)
    refine ⟨rfl, ?_⟩
    split at hbusy
    · next hside => exact hside.trans hty
    · exact (G.busy i r₀ hr₀ hbusy).2
  · intro h
    rw [show s.switching = true from h] at hswitch
    cases hswitch

/-- An enabled rank is of the side that is enabled. -/
theorem GatingOk.of_enabled {i : Nat} (h : s.rankEnabled i = true) : s.side i = mode := by
  obtain ⟨r, hr, henabled⟩ := (Option.any_eq_true _ _).mp h
  rw [G.enabled i r hr] at henabled
  exact of_decide_eq_true henabled

/-- No switch is needed only when the side of the task is enabled. -/
theorem GatingOk.needSwitch {t : TaskDescriptor} (htype : t.type ≠ .idle)
    (h : s.needSwitch t = false) : t.type = mode := by
  have hranks := G.ranks
  unfold GatedTaskScheduler.needSwitch at h
  cases hty : t.type with
  | idle => exact absurd hty htype
  | drafting =>
      rw [hty] at h
      have hside := G.of_enabled (by simpa using h)
      rw [← hside, G.drafting]
      exact (if_pos (by omega)).symm
  | preVerification =>
      rw [hty] at h
      have hside := G.of_enabled (by simpa using h)
      rw [← hside, G.verification]
      exact (if_neg (by omega)).symm

theorem GatingOk.scheduleNextTask (currentCycle : Nat) :
    ∃ mode', GatingOk (s.scheduleNextTask currentCycle).2 mode' := by
  rcases schedule_cases s currentCycle with ⟨hsame, _⟩ |
    ⟨next, rest, hq, hactive, hswitch, ⟨_, hswitched⟩ | ⟨hstay, hstarted⟩⟩
  · exact ⟨mode, hsame.symm ▸ G⟩
  · rw [hswitched]
    exact ⟨next.type, G.initiateTaskSwitch hactive hq⟩
  · have htype := G.tasks next (hq ▸ List.mem_cons_self)
    rw [hstarted]
    exact ⟨mode, G.startTask hswitch hq (G.needSwitch htype hstay) currentCycle⟩

/-- The cycle of a running task. -/
theorem GatingOk.tick (hactive : s.activeTask = true) (total drafting verification : Nat) :
    GatingOk { s with
      totalCycles := total
      rankStates := s.rankStates.map RankState.tick
      draftingCycles := drafting
      verificationCycles := verification } mode := by
  refine ⟨⟨G.ranks, (List.length_map ..).trans G.length, G.drafting, G.verification, G.tasks⟩,
    G.sided, ?_, ?_, ?_⟩
  · intro i r hr
    rw [List.getElem?_map] at hr
    obtain ⟨r₀, hr₀, rfl⟩ := Option.map_eq_some_iff.mp hr
    exact r₀.tick_enabled.trans (G.enabled i r₀ hr₀)
  · intro i r hr hbusy
    rw [List.getElem?_map] at hr
    obtain ⟨r₀, hr₀, rfl⟩ := Option.map_eq_some_iff.mp hr
    rw [RankState.tick_busy] at hbusy
    exact G.busy i r₀ hr₀ (Bool.and_eq_true_iff.mp hbusy).1
  · intro hswitch
    rw [(G.switching hswitch).1] at hactive
    cases hactive

theorem GatingOk.update : GatingOk s.update mode := by
  unfold GatedTaskScheduler.update
  dsimp only
  split
  · next hswitch =>
      obtain ⟨hactive, t, rest, hq, hty⟩ := G.switching hswitch
      split
      · exact ⟨⟨G.ranks, G.length, G.drafting, G.verification, G.tasks⟩, G.sided, G.enabled, G.busy,
          fun _ => ⟨hactive, t, rest, hq, hty⟩⟩
      · -- the switch is over: the task it was made for starts
        have Gdone : GatingOk { s with
            totalCycles := s.totalCycles + 1
            switching := false } mode :=
          ⟨⟨G.ranks, G.length, G.drafting, G.verification, G.tasks⟩, G.sided, G.enabled, G.busy,
            fun h => nomatch h⟩
        split
        · next hempty =>
            rw [hq] at hempty
            cases hempty
        · next front queue hfront =>
            rw [hq] at hfront
            cases hfront
            exact Gdone.startTask rfl hq hty (s.totalCycles + 1)
  · next hswitch =>
      split
      · next hactive =>
          have Gtick := G.tick hactive (s.totalCycles + 1) (s.draftingCycles + s.workingOn .drafting)
            (s.verificationCycles + s.workingOn .preVerification)
          split
          · next hdone =>
              refine ⟨⟨G.ranks, Gtick.length, G.drafting, G.verification, ?_⟩, G.sided,
                Gtick.enabled, ?_, ?_⟩
              · exact fun t ht => G.tasks t (List.mem_of_mem_drop ht)
              · -- no rank works any more, so none is busy
                intro i r hr hbusy
                rw [List.getElem?_map] at hr
                obtain ⟨r₀, hr₀, rfl⟩ := Option.map_eq_some_iff.mp hr
                rw [RankState.tick_busy] at hbusy
                rw [Bool.not_eq_true'] at hdone
                exact absurd hbusy (List.any_eq_false.mp hdone r₀ (List.mem_of_getElem? hr₀))
              · exact fun h => absurd h hswitch
          · exact Gtick
      · exact ⟨⟨G.ranks, G.length, G.drafting, G.verification, G.tasks⟩, G.sided, G.enabled, G.busy,
          G.switching⟩

end Calls

/-- **The invariant in every reachable state.** -/
theorem reach_gatingOk {numRanks : Nat} (h : 2 ≤ numRanks) {s : GatedTaskScheduler}
    {shown : List Unit} (hr : Exec machine (new numRanks) s shown) : ∃ mode, GatingOk s mode := by
  refine hr.invariantOn (P := fun s => ∃ mode, GatingOk s mode) ⟨.drafting, new_gatingOk h⟩ ?_
  rintro s a s' ⟨mode, G⟩ hs
  cases hs
  cases a with
  | submit type htype batchSize cycles => exact ⟨mode, G.submitTask htype batchSize cycles⟩
  | schedule currentCycle => exact G.scheduleNextTask currentCycle
  | update => exact ⟨mode, G.update⟩

/-! ## 5. What the gating guarantees -/

/-- A rank is busy. -/
def rankBusy (s : GatedTaskScheduler) (rank : Nat) : Bool :=
  (s.rankStates[rank]?).any (·.busy)

/-- The guarantees of the gating: one side is enabled, all of it, and the other is not; only enabled
    ranks are busy; the two sides are never busy together; during a switch nothing runs. -/
structure Gated (s : GatedTaskScheduler) : Prop where
  oneSide :
    (∀ rank < s.numRanks - 1, s.rankEnabled rank = true) ∧
        s.rankEnabled s.verificationRank = false ∨
      (∀ rank < s.numRanks - 1, s.rankEnabled rank = false) ∧
        s.rankEnabled s.verificationRank = true
  busyEnabled : ∀ rank, s.rankBusy rank = true → s.rankEnabled rank = true
  apart : ∀ rank < s.numRanks - 1, s.rankBusy rank = true → s.rankBusy s.verificationRank = false
  switching : s.switching = true → s.activeTask = false ∧ ∀ rank, s.rankBusy rank = false

theorem GatingOk.rankEnabled {s : GatedTaskScheduler} {mode : PIMTaskType} (G : GatingOk s mode)
    {rank : Nat} (h : rank < s.numRanks) : s.rankEnabled rank = decide (s.side rank = mode) := by
  have hlt : rank < s.rankStates.length := by rw [G.length]; exact h
  unfold GatedTaskScheduler.rankEnabled
  rw [List.getElem?_eq_getElem hlt]
  exact G.enabled rank _ (List.getElem?_eq_getElem hlt)

theorem GatingOk.rankBusy {s : GatedTaskScheduler} {mode : PIMTaskType} (G : GatingOk s mode)
    {rank : Nat} (h : s.rankBusy rank = true) :
    rank < s.numRanks ∧ s.activeTask = true ∧ s.side rank = mode := by
  obtain ⟨r, hr, hbusy⟩ := (Option.any_eq_true _ _).mp h
  refine ⟨?_, G.busy rank r hr hbusy⟩
  rw [← G.length]
  exact (List.getElem?_eq_some_iff.mp hr).1

/-- The invariant gives the guarantees. -/
theorem GatingOk.gated {s : GatedTaskScheduler} {mode : PIMTaskType} (G : GatingOk s mode) :
    Gated s := by
  have hranks := G.ranks
  have hverify := G.verification
  have hdraftSide : ∀ rank < s.numRanks - 1, s.side rank = .drafting := fun _ h => if_pos h
  have hverifySide : s.side s.verificationRank = .preVerification := if_neg (by omega)
  have hlast : s.verificationRank < s.numRanks := by omega
  refine ⟨?_, ?_, ?_, ?_⟩
  · cases hmode : mode with
    | idle => exact absurd hmode G.sided
    | drafting =>
        subst hmode
        refine .inl ⟨fun rank h => ?_, ?_⟩
        · rw [G.rankEnabled (by omega), hdraftSide rank h]
          rfl
        · rw [G.rankEnabled hlast, hverifySide]
          rfl
    | preVerification =>
        subst hmode
        refine .inr ⟨fun rank h => ?_, ?_⟩
        · rw [G.rankEnabled (by omega), hdraftSide rank h]
          rfl
        · rw [G.rankEnabled hlast, hverifySide]
          rfl
  · intro rank hbusy
    obtain ⟨hlt, _, hside⟩ := G.rankBusy hbusy
    rw [G.rankEnabled hlt]
    exact decide_eq_true hside
  · intro rank hlt hbusy
    obtain ⟨_, _, hside⟩ := G.rankBusy hbusy
    cases hother : s.rankBusy s.verificationRank with
    | false => rfl
    | true =>
        obtain ⟨_, _, hside'⟩ := G.rankBusy hother
        rw [hdraftSide rank hlt] at hside
        rw [hverifySide, ← hside] at hside'
        cases hside'
  · intro hswitch
    refine ⟨(G.switching hswitch).1, fun rank => ?_⟩
    cases hbusy : s.rankBusy rank with
    | false => rfl
    | true =>
        have hactive := (G.rankBusy hbusy).2.1
        rw [(G.switching hswitch).1] at hactive
        cases hactive

/-- **The gating in every reachable state**, for every interleaving of the calls. -/
theorem gating_safe {numRanks : Nat} (h : 2 ≤ numRanks) {s : GatedTaskScheduler}
    {shown : List Unit} (hr : Exec machine (new numRanks) s shown) : Gated s := by
  obtain ⟨mode, G⟩ := reach_gatingOk h hr
  exact G.gated

/-- A drafting and a pre-verification on two ranks, up to the switch to the second. -/
def switchCalls : List Act :=
  [.submit .drafting (by decide) 1 1, .submit .preVerification (by decide) 1 1, .schedule 0, .update,
    .update, .schedule 2]

theorem gating_safe_sample : ∃ s shown, Exec machine (new 2) s shown ∧ s.switching = true ∧
    Gated s := by
  have hrun : (machine.run switchCalls (new 2)).any (fun r => r.1.switching) = true := by decide
  obtain ⟨⟨s, shown⟩, hr, hswitch⟩ := (Option.any_eq_true _ _).mp hrun
  exact ⟨s, shown, exec_of_run hr, hswitch, gating_safe (by decide) (exec_of_run hr)⟩

end GatedTaskScheduler

/-! ## 6. The rank that drives the scheduler -/

/-- `PIMRank`, the fields that concern the scheduler. -/
structure PIMRank where
  gatedScheduler : Option GatedTaskScheduler := none
  currentClockCycle : Nat := 0
  totalDraftingOps : Nat := 0
  totalPreverifyOps : Nat := 0

namespace PIMRank

/-- `initializeAHASD`. -/
def initializeAHASD (p : PIMRank) (numRanks : Nat) : PIMRank :=
  match p.gatedScheduler with
  | none => { p with gatedScheduler := some (.new numRanks) }
  | some _ => p

/-- `updateAHASD`: a cycle, and the next task when nothing runs. -/
def updateAHASD (p : PIMRank) : PIMRank :=
  match p.gatedScheduler with
  | none => p
  | some g =>
      let g := g.update
      if !g.isBusy then { p with gatedScheduler := some (g.scheduleNextTask p.currentClockCycle).2 }
      else { p with gatedScheduler := some g }

/-- The common form of the two submissions: the scheduler after it, when it was taken. -/
def submit (p : PIMRank) (type : PIMTaskType) (batchSize estimatedCycles : Nat) :
    Option GatedTaskScheduler :=
  match p.gatedScheduler with
  | none => none
  | some g =>
      if g.canAcceptTask then some (g.submitTask type batchSize estimatedCycles).2 else none

/-- `startDraftingTask`. -/
def startDraftingTask (p : PIMRank) (batchSize estimatedCycles : Nat) : Bool × PIMRank :=
  match p.submit .drafting batchSize estimatedCycles with
  | none => (false, p)
  | some g => (true, { p with gatedScheduler := some g, totalDraftingOps := p.totalDraftingOps + 1 })

/-- `startPreVerificationTask`. -/
def startPreVerificationTask (p : PIMRank) (batchSize estimatedCycles : Nat) : Bool × PIMRank :=
  match p.submit .preVerification batchSize estimatedCycles with
  | none => (false, p)
  | some g =>
      (true, { p with gatedScheduler := some g, totalPreverifyOps := p.totalPreverifyOps + 1 })

/-- The calls on the rank. -/
inductive Act where
  | initializeAHASD (numRanks : Nat) (hranks : 2 ≤ numRanks)
  | clock
  | update
  | startDrafting (batchSize estimatedCycles : Nat)
  | startPreVerification (batchSize estimatedCycles : Nat)

/-- One call. -/
def step (p : PIMRank) : Act → PIMRank
  | .initializeAHASD numRanks _ => p.initializeAHASD numRanks
  | .clock => { p with currentClockCycle := p.currentClockCycle + 1 }
  | .update => p.updateAHASD
  | .startDrafting batchSize estimatedCycles => (p.startDraftingTask batchSize estimatedCycles).2
  | .startPreVerification batchSize estimatedCycles =>
      (p.startPreVerificationTask batchSize estimatedCycles).2

/-- The rank as a machine. -/
def machine : Machine PIMRank Act Unit where
  step p a := some (p.step a)
  obs _ _ _ := []

/-- The scheduler of the rank is in a state its own calls reach. -/
def SchedulerReached (p : PIMRank) : Prop :=
  ∀ g, p.gatedScheduler = some g → ∃ numRanks shown, 2 ≤ numRanks ∧
    Exec GatedTaskScheduler.machine (.new numRanks) g shown

/-- A call of the scheduler goes on from a state it reached. -/
theorem SchedulerReached.call {p p' : PIMRank} (h : SchedulerReached p) {g g' : GatedTaskScheduler}
    (hg : p.gatedScheduler = some g) (hg' : p'.gatedScheduler = some g')
    (hcall : g' = g ∨ ∃ a, g' = g.step a) : SchedulerReached p' := by
  intro g₁ hg₁
  rw [hg', Option.some.injEq] at hg₁
  subst hg₁
  obtain ⟨numRanks, shown, hranks, hr⟩ := h g hg
  rcases hcall with rfl | ⟨a, rfl⟩
  · exact ⟨numRanks, shown, hranks, hr⟩
  · exact ⟨numRanks, _, hranks, .step g _ shown a hr rfl⟩

theorem SchedulerReached.submit {p p' : PIMRank} (h : SchedulerReached p) {type : PIMTaskType}
    (htype : type ≠ .idle) {batchSize cycles : Nat} {g' : GatedTaskScheduler}
    (hs : p.submit type batchSize cycles = some g') (hp' : p'.gatedScheduler = some g') :
    SchedulerReached p' := by
  unfold PIMRank.submit at hs
  split at hs
  · cases hs
  · next g hg =>
      split at hs
      · cases hs
        exact h.call hg hp' (.inr ⟨.submit type htype batchSize cycles, rfl⟩)
      · cases hs

/-- **The rank's scheduler is always in a state its own calls reach**, so the gating holds for
    it. -/
theorem scheduler_reached {p : PIMRank} {shown : List Unit} (hr : Exec machine {} p shown) :
    SchedulerReached p := by
  have hnone : SchedulerReached {} := by
    intro g hg
    cases hg
  refine hr.invariantOn (P := SchedulerReached) hnone ?_
  intro p a p' h hs
  cases hs
  cases a with
  | initializeAHASD numRanks hranks =>
      show SchedulerReached (p.initializeAHASD numRanks)
      unfold initializeAHASD
      split
      · intro g hg
        cases hg
        exact ⟨numRanks, [], hranks, .start⟩
      · exact h
  | clock => exact h
  | update =>
      show SchedulerReached p.updateAHASD
      unfold updateAHASD
      split
      · exact h
      · next g hg =>
          have hupdate : SchedulerReached { p with gatedScheduler := some g.update } :=
            h.call hg rfl (.inr ⟨.update, rfl⟩)
          dsimp only
          split
          · exact hupdate.call rfl rfl (.inr ⟨.schedule p.currentClockCycle, rfl⟩)
          · exact hupdate
  | startDrafting batchSize cycles =>
      show SchedulerReached (p.startDraftingTask batchSize cycles).2
      unfold startDraftingTask
      split
      · exact h
      · next g' hs => exact h.submit (by decide) hs rfl
  | startPreVerification batchSize cycles =>
      show SchedulerReached (p.startPreVerificationTask batchSize cycles).2
      unfold startPreVerificationTask
      split
      · exact h
      · next g' hs => exact h.submit (by decide) hs rfl

end PIMRank

end Ahasd.PIMSimulator
