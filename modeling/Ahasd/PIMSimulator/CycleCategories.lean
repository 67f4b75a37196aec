/-
  File:      Ahasd/PIMSimulator/CycleCategories.lean
  Subject:   THE CYCLE CATEGORIES OF THE GATED SCHEDULER against its wall time
             (GatedTaskScheduler.h).

  `update` counts a cycle once, but a cycle of a drafting once for every drafting rank. The other
  categories count it at most once, and two kinds of cycles enter no category at all: the end of a
  switch and the end of a task.

  * `Call`, `cycleMachine`: the calls in any order, each `update` showing the kind of its cycle,
    which is read from the state before it;
  * `TwoSides`: all drafting ranks are in one and the same state, so they work together;
  * `reach_counted`: what each counter is of the cycles shown;
  * **`cycles_within_total`**: exactly when the categories stay within the total.
-/
import Ahasd.PIMSimulator.GatedTaskScheduler

namespace Ahasd.PIMSimulator

open Transition

namespace GatedTaskScheduler

/-! ## 1. The reports, the calls and the kinds of cycles -/

/-- `get_utilization`. -/
def getUtilization (s : GatedTaskScheduler) : ℚ :=
  if s.totalCycles = 0 then 0
  else ((s.draftingCycles + s.verificationCycles : Nat) : ℚ) / s.totalCycles

/-- `get_switch_overhead_percent`. -/
def getSwitchOverheadPercent (s : GatedTaskScheduler) : ℚ :=
  if s.totalCycles = 0 then 0 else (s.switchOverheadCycles : ℚ) / s.totalCycles * 100

/-- The calls on the scheduler, with tasks of any type. -/
inductive Call where
  | submitTask (type : PIMTaskType) (batchSize estimatedCycles : Nat)
  | scheduleNextTask (currentCycle : Nat)
  | update
  deriving DecidableEq, Repr

/-- What the cycle of an `update` is spent on. -/
inductive CycleKind where
  | switching
  | switched
  | drafting
  | verification
  | taskDone
  | idle
  deriving DecidableEq, Repr

/-- Some rank works on a task of the type. -/
def worksOn (s : GatedTaskScheduler) (type : PIMTaskType) : Bool :=
  s.rankStates.any fun r => r.working && r.currentTask == type

/-- The kind of the cycle that the next `update` counts. -/
def cycleKind (s : GatedTaskScheduler) : CycleKind :=
  if s.switching then
    if s.currentSwitchDelay > 0 then .switching else .switched
  else if s.activeTask then
    if s.worksOn .drafting then .drafting
    else if s.worksOn .preVerification then .verification
    else .taskDone
  else .idle

/-- One call. -/
def call (s : GatedTaskScheduler) : Call → GatedTaskScheduler
  | .submitTask type batchSize estimatedCycles => (s.submitTask type batchSize estimatedCycles).2
  | .scheduleNextTask currentCycle => (s.scheduleNextTask currentCycle).2
  | .update => s.update

/-- The kind of cycle a call counts, if it counts one. -/
def cyclesOf (s : GatedTaskScheduler) : Call → List CycleKind
  | .update => [s.cycleKind]
  | _ => []

/-- The scheduler as a machine that shows its cycles. -/
def cycleMachine : Machine GatedTaskScheduler Call CycleKind where
  step s c := some (s.call c)
  obs s c _ := s.cyclesOf c

/-! ## 2. The drafting ranks work together -/

/-- All drafting ranks are in the state `d`, the last rank is in the state `v`; a busy rank works
    for its side, and only while a task is active and for one side at a time. -/
structure TwoSides (s : GatedTaskScheduler) (d v : RankState) : Prop where
  two : 2 ≤ s.numRanks
  ranks : s.rankStates = List.replicate (s.numRanks - 1) d ++ [v]
  last : s.verificationRank = s.numRanks - 1
  drafts : d.busy = true → d.currentTask = .drafting
  verifies : v.busy = true → v.currentTask = .preVerification
  apart : d.busy = false ∨ v.busy = false
  active : s.activeTask = false → d.busy = false ∧ v.busy = false
  switching : s.switching = true → s.activeTask = false

theorem new_twoSides {numRanks : Nat} (h : 2 ≤ numRanks) :
    TwoSides (new numRanks) { enabled := true } {} := by
  refine ⟨h, ?_, rfl, Bool.noConfusion, Bool.noConfusion, .inl rfl, fun _ => ⟨rfl, rfl⟩,
    Bool.noConfusion⟩
  obtain ⟨n, rfl⟩ : ∃ n, numRanks = n + 1 := ⟨numRanks - 1, by omega⟩
  have hdraft : ∀ i ∈ List.range n, ({ enabled := decide (i < n) } : RankState) =
      { enabled := true } := by
    intro i hi
    rw [decide_eq_true (List.mem_range.mp hi)]
  unfold new
  simp only [Nat.add_sub_cancel]
  rw [List.range_succ, List.map_append, List.map_congr_left hdraft, List.map_const',
    List.length_range]
  simp

/-- An access to the drafting ranks changes their common state. -/
theorem onDraftingRanks_replicate {s : GatedTaskScheduler} {d v : RankState}
    (h : s.rankStates = List.replicate (s.numRanks - 1) d ++ [v]) (f : RankState → RankState) :
    (s.onDraftingRanks f).rankStates = List.replicate (s.numRanks - 1) (f d) ++ [v] := by
  unfold onDraftingRanks
  dsimp only
  rw [h, List.mapIdx_append]
  congr 1
  · refine List.ext_getElem (by simp) fun i hi _ => ?_
    have hlt : i < s.numRanks - 1 := by simpa using hi
    simp [hlt]
  · simp

/-- An access to the verification rank changes the last state. -/
theorem onVerificationRank_replicate {s : GatedTaskScheduler} {d v : RankState}
    (h : s.rankStates = List.replicate (s.numRanks - 1) d ++ [v])
    (hlast : s.verificationRank = s.numRanks - 1) (f : RankState → RankState) :
    (s.onVerificationRank f).rankStates = List.replicate (s.numRanks - 1) d ++ [f v] := by
  unfold onVerificationRank
  dsimp only
  rw [h, hlast]
  refine List.ext_getElem? fun i => ?_
  rw [List.getElem?_modify]
  by_cases hi : s.numRanks - 1 = i
  · subst hi
    simp
  · simp only [hi, if_false]
    rcases Nat.lt_or_ge i (s.numRanks - 1) with hlt | hge
    · simp [List.getElem?_append, hlt]
    · have hout : s.numRanks - 1 + 1 ≤ i := by omega
      rw [List.getElem?_eq_none (by simpa using hout), List.getElem?_eq_none (by simpa using hout)]
      rfl

section Calls

variable {s : GatedTaskScheduler} {d v : RankState} (T : TwoSides s d v)

include T

/-- A switch sets `enabled` only. -/
theorem TwoSides.initiateTaskSwitch (hactive : s.activeTask = false) (target : PIMTaskType) :
    ∃ d' v', TwoSides (s.initiateTaskSwitch target) d' v' := by
  obtain ⟨hd, hv⟩ := T.active hactive
  have hboth : ∀ (t : GatedTaskScheduler) (a b : Bool),
      t.rankStates = s.rankStates → t.numRanks = s.numRanks →
      t.verificationRank = s.verificationRank → t.activeTask = false →
      TwoSides ((t.onDraftingRanks ({ · with enabled := a })).onVerificationRank
        ({ · with enabled := b })) { d with enabled := a } { v with enabled := b } := by
    intro t a b hranks hnum hlast hact
    have ht : t.rankStates = List.replicate (t.numRanks - 1) d ++ [v] := by
      rw [hranks, hnum, T.ranks]
    have hlast' : t.verificationRank = t.numRanks - 1 := by rw [hlast, hnum, T.last]
    exact ⟨hnum ▸ T.two, onVerificationRank_replicate (onDraftingRanks_replicate ht _) hlast' _, hlast',
      fun h => (Bool.eq_false_iff.mp hd h).elim, fun h => (Bool.eq_false_iff.mp hv h).elim,
      .inl hd, fun _ => ⟨hd, hv⟩, fun _ => hact⟩
  unfold GatedTaskScheduler.initiateTaskSwitch
  dsimp only
  split
  · exact ⟨_, _, hboth _ false true rfl rfl rfl hactive⟩
  · exact ⟨_, _, hboth _ true false rfl rfl rfl hactive⟩

/-- A task that starts makes its side busy. -/
theorem TwoSides.started (hactive : s.activeTask = false) (hswitch : s.switching = false)
    (task : TaskDescriptor) (currentCycle : Nat) :
    TwoSides (s.startTask task currentCycle) (if task.type = .drafting then d.take task else d)
      (if task.type = .preVerification then v.take task else v) := by
  obtain ⟨hd, hv⟩ := T.active hactive
  have hstays : s.switching = true → true = false := by
    intro h
    rw [hswitch] at h
    cases h
  unfold GatedTaskScheduler.startTask
  cases htype : task.type with
  | idle =>
      exact ⟨T.two, T.ranks, T.last, T.drafts, T.verifies, T.apart, Bool.noConfusion, hstays⟩
  | drafting =>
      exact ⟨T.two, onDraftingRanks_replicate T.ranks _, T.last, fun _ => htype, T.verifies, .inr hv,
        Bool.noConfusion, hstays⟩
  | preVerification =>
      exact ⟨T.two, onVerificationRank_replicate T.ranks T.last _, T.last, T.drafts, fun _ => htype,
        .inl hd, Bool.noConfusion, hstays⟩

theorem TwoSides.startTask (hactive : s.activeTask = false) (hswitch : s.switching = false)
    (task : TaskDescriptor) (currentCycle : Nat) :
    ∃ d' v', TwoSides (s.startTask task currentCycle) d' v' :=
  ⟨_, _, T.started hactive hswitch task currentCycle⟩

theorem TwoSides.scheduleNextTask (currentCycle : Nat) :
    ∃ d' v', TwoSides (s.scheduleNextTask currentCycle).2 d' v' := by
  rcases schedule_cases s currentCycle with ⟨hsame, _⟩ |
    ⟨t, rest, _, hactive, hswitch, ⟨_, hswitched⟩ | ⟨_, hstarted⟩⟩
  · exact ⟨d, v, hsame.symm ▸ T⟩
  · rw [hswitched]
    exact T.initiateTaskSwitch hactive t.type
  · rw [hstarted]
    exact T.startTask hactive hswitch t currentCycle

/-- The cycle of an active task: every busy rank works or is done. -/
theorem TwoSides.tick {t : GatedTaskScheduler} (hranks : t.rankStates = s.rankStates.map RankState.tick)
    (hnum : t.numRanks = s.numRanks) (hlast : t.verificationRank = s.verificationRank)
    (hactive : t.activeTask = false → s.rankStates.any RankState.working = false)
    (hswitch : t.switching = true → t.activeTask = false) : TwoSides t d.tick v.tick := by
  have htask : ∀ {r : RankState}, r.tick.busy = true → r.busy = true ∧
      r.tick.currentTask = r.currentTask := by
    intro r h
    have hworks : r.busy = true ∧ 0 < r.remainingCycles := by
      simpa [RankState.tick_busy, RankState.working] using h
    unfold RankState.tick
    rw [if_pos hworks.1, if_pos hworks.2]
    exact ⟨hworks.1, rfl⟩
  have hstops : ∀ {r : RankState}, r.busy = false → r.tick.busy = false := by
    intro r h
    simp [RankState.tick, h]
  refine ⟨hnum ▸ T.two, ?_, ?_, fun h => ?_, fun h => ?_, T.apart.imp hstops hstops, fun h => ?_,
    hswitch⟩
  · rw [hranks, T.ranks, hnum]
    simp
  · rw [hlast, hnum, T.last]
  · exact (htask h).2.trans (T.drafts (htask h).1)
  · exact (htask h).2.trans (T.verifies (htask h).1)
  · have hnone := List.any_eq_false.mp (hactive h)
    have htwo := T.two
    rw [RankState.tick_busy, RankState.tick_busy]
    refine ⟨Bool.eq_false_iff.mpr (hnone d ?_), Bool.eq_false_iff.mpr (hnone v ?_)⟩
    · rw [T.ranks]
      exact List.mem_append_left _ (List.mem_replicate.mpr ⟨by omega, rfl⟩)
    · rw [T.ranks]
      exact List.mem_append_right _ (List.mem_singleton.mpr rfl)

/-- What leaves the ranks alone keeps the sides. -/
theorem TwoSides.leaves {s' : GatedTaskScheduler} (F : Leaves s s')
    (hswitch : s'.switching = true → s'.activeTask = false) : TwoSides s' d v :=
  ⟨F.num ▸ T.two, by rw [F.ranks, F.num, T.ranks], by rw [F.last, F.num, T.last], T.drafts,
    T.verifies, T.apart, fun h => T.active (F.active.symm.trans h), hswitch⟩

theorem TwoSides.update : ∃ d' v', TwoSides s.update d' v' := by
  rcases update_cases s with ⟨hswitch, F, _⟩ | ⟨hswitch, t, F, hswitched, hupdate⟩ |
    ⟨_, _, F⟩ | ⟨_, hactive, F, _⟩
  · exact ⟨d, v, T.leaves F fun _ => F.active.trans (T.switching hswitch)⟩
  · -- the switch is over: the task at the front starts
    have hstill := F.active.trans (T.switching hswitch)
    have T' : TwoSides t d v := T.leaves F fun _ => hstill
    cases hq : s.pendingTasks with
    | nil =>
        rw [hq] at hupdate
        exact ⟨d, v, hupdate.symm ▸ T'⟩
    | cons front rest =>
        rw [hq] at hupdate
        rw [hupdate]
        exact T'.startTask hstill hswitched front t.totalCycles
  · exact ⟨_, _, T.tick F.ranks F.num F.last (fun h => F.active.symm.trans h)
      fun h => absurd (F.switching.symm.trans h) Bool.false_ne_true⟩
  · exact ⟨d, v, T.leaves F fun _ => F.active.trans hactive⟩

theorem TwoSides.call (c : Call) : ∃ d' v', TwoSides (s.call c) d' v' := by
  cases c with
  | submitTask type batchSize estimatedCycles =>
      exact ⟨d, v, T.two, T.ranks, T.last, T.drafts, T.verifies, T.apart, T.active, T.switching⟩
  | scheduleNextTask currentCycle => exact T.scheduleNextTask currentCycle
  | update => exact T.update

/-- The ranks that work on a drafting: all drafting ranks, or none. -/
theorem TwoSides.workingOn_drafting :
    s.workingOn .drafting = if s.worksOn .drafting then s.numRanks - 1 else 0 := by
  have htwo := T.two
  have hlast : (v.working && v.currentTask == .drafting) = false := by
    cases hv : v.busy with
    | false => simp [RankState.working, hv]
    | true => simp [T.verifies hv]
  unfold workingOn worksOn
  rw [T.ranks, List.countP_append, List.any_append, List.countP_replicate, List.any_replicate,
    if_neg (by omega : ¬ s.numRanks - 1 = 0)]
  simp [hlast]

/-- The ranks that work on a pre-verification: the last one, or none. -/
theorem TwoSides.workingOn_preVerification :
    s.workingOn .preVerification = if s.worksOn .preVerification then 1 else 0 := by
  have hdraft : (d.working && d.currentTask == .preVerification) = false := by
    cases hd : d.busy with
    | false => simp [RankState.working, hd]
    | true => simp [T.drafts hd]
  unfold workingOn worksOn
  rw [T.ranks, List.countP_append, List.any_append, List.countP_replicate, List.any_replicate]
  simp [hdraft, List.countP_singleton]

/-- The two sides do not work in one cycle. -/
theorem TwoSides.works_apart (h : s.worksOn .drafting = true) : s.worksOn .preVerification = false := by
  have htwo := T.two
  have hpos : ∀ type, s.worksOn type =
      (d.working && d.currentTask == type || v.working && v.currentTask == type) := by
    intro type
    unfold worksOn
    rw [T.ranks, List.any_append, List.any_replicate, if_neg (by omega : ¬ s.numRanks - 1 = 0)]
    simp
  rw [hpos] at h ⊢
  rcases T.apart with hd | hv
  · cases hv : v.busy with
    | false => simp [RankState.working, hd, hv]
    | true => simp [RankState.working, hd, T.verifies hv] at h
  · cases hd : d.busy with
    | false => simp [RankState.working, hd, hv]
    | true => simp [RankState.working, hv, T.drafts hd]

end Calls

/-! ## 3. The counters and the cycles -/

/-- The cycle counters. -/
structure CycleCounters where
  drafting : Nat
  verification : Nat
  idle : Nat
  switchOverhead : Nat
  total : Nat
  deriving DecidableEq, Repr

/-- The counters of the scheduler. -/
def cycles (s : GatedTaskScheduler) : CycleCounters :=
  ⟨s.draftingCycles, s.verificationCycles, s.idleCycles, s.switchOverheadCycles, s.totalCycles⟩

/-- What the counters are of a list of cycles: a drafting counts on every drafting rank. -/
def CycleCounters.of (draftingRanks : Nat) (kinds : List CycleKind) : CycleCounters where
  drafting := draftingRanks * kinds.count .drafting
  verification := kinds.count .verification
  idle := kinds.count .idle
  switchOverhead := kinds.count .switching
  total := kinds.length

/-- One cycle more. -/
def CycleCounters.count (draftingRanks : Nat) (c : CycleCounters) : CycleKind → CycleCounters
  | .switching => { c with switchOverhead := c.switchOverhead + 1, total := c.total + 1 }
  | .drafting => { c with drafting := c.drafting + draftingRanks, total := c.total + 1 }
  | .verification => { c with verification := c.verification + 1, total := c.total + 1 }
  | .idle => { c with idle := c.idle + 1, total := c.total + 1 }
  | .switched | .taskDone => { c with total := c.total + 1 }

theorem CycleCounters.of_append (draftingRanks : Nat) (kinds : List CycleKind) (k : CycleKind) :
    CycleCounters.of draftingRanks (kinds ++ [k]) =
      (CycleCounters.of draftingRanks kinds).count draftingRanks k := by
  cases k <;> simp [CycleCounters.of, CycleCounters.count, Nat.mul_add]

/-- Every cycle is of one kind. -/
theorem length_eq_counts (kinds : List CycleKind) : kinds.length =
    kinds.count .drafting + kinds.count .verification + kinds.count .idle +
      kinds.count .switching + kinds.count .switched + kinds.count .taskDone := by
  induction kinds with
  | nil => rfl
  | cons k kinds ih =>
      rw [List.length_cons, ih]
      cases k <;> simp +arith

@[simp] theorem startTask_cycles (s : GatedTaskScheduler) (task : TaskDescriptor)
    (currentCycle : Nat) : (s.startTask task currentCycle).cycles = s.cycles := by
  unfold startTask
  dsimp only
  split <;> rfl

theorem scheduleNextTask_cycles (s : GatedTaskScheduler) (currentCycle : Nat) :
    (s.scheduleNextTask currentCycle).2.cycles = s.cycles := by
  rcases schedule_cases s currentCycle with ⟨hsame, _⟩ |
    ⟨t, rest, _, _, _, ⟨_, hswitched⟩ | ⟨_, hstarted⟩⟩
  · rw [hsame]
  · rw [hswitched]
    unfold initiateTaskSwitch
    dsimp only
    split <;> rfl
  · rw [hstarted, startTask_cycles]

theorem scheduleNextTask_numRanks (s : GatedTaskScheduler) (currentCycle : Nat) :
    (s.scheduleNextTask currentCycle).2.numRanks = s.numRanks := by
  rcases schedule_cases s currentCycle with ⟨hsame, _⟩ |
    ⟨t, rest, _, _, _, ⟨_, hswitched⟩ | ⟨_, hstarted⟩⟩
  · rw [hsame]
  · rw [hswitched, (initiateTaskSwitch_fields s t.type).2.2.2.2.2]
  · rw [hstarted, (startTask_fields s t currentCycle).2.2.2]

/-- **What an `update` counts** is the kind of its cycle, a drafting once for every drafting
    rank. -/
theorem TwoSides.update_cycles {s : GatedTaskScheduler} {d v : RankState} (T : TwoSides s d v) :
    s.update.cycles = s.cycles.count (s.numRanks - 1) s.cycleKind := by
  have hdraft := T.workingOn_drafting
  have hverify := T.workingOn_preVerification
  unfold GatedTaskScheduler.update cycleKind
  dsimp only
  split
  · split
    · rfl
    · split
      · rfl
      · exact startTask_cycles _ _ _
  · split
    · -- the two working counts are those of the state before
      have hcounts : ∀ t : GatedTaskScheduler, t.cycles =
          ⟨s.draftingCycles + s.workingOn .drafting,
            s.verificationCycles + s.workingOn .preVerification, s.idleCycles,
            s.switchOverheadCycles, s.totalCycles + 1⟩ →
          t.cycles = s.cycles.count (s.numRanks - 1)
            (if s.worksOn .drafting then .drafting
              else if s.worksOn .preVerification then .verification else .taskDone) := by
        intro t ht
        rw [ht, hdraft, hverify]
        cases hd : s.worksOn .drafting with
        | true => simp [T.works_apart hd, CycleCounters.count, cycles]
        | false =>
            cases hv : s.worksOn .preVerification with
            | true => simp [CycleCounters.count, cycles]
            | false => simp [CycleCounters.count, cycles]
      split
      · exact hcounts _ rfl
      · exact hcounts _ rfl
    · rfl

theorem update_numRanks (s : GatedTaskScheduler) : s.update.numRanks = s.numRanks := by
  rcases update_cases s with ⟨_, F, _⟩ | ⟨_, t, F, _, hupdate⟩ | ⟨_, _, F⟩ | ⟨_, _, F, _⟩
  · exact F.num
  · rw [hupdate]
    split
    · exact F.num
    · exact (startTask_fields t _ t.totalCycles).2.2.2.trans F.num
  · exact F.num
  · exact F.num

theorem call_numRanks (s : GatedTaskScheduler) (c : Call) : (s.call c).numRanks = s.numRanks := by
  cases c with
  | submitTask type batchSize estimatedCycles => rfl
  | scheduleNextTask currentCycle => exact scheduleNextTask_numRanks s currentCycle
  | update => exact s.update_numRanks

/-- The counters are those of the cycles shown. -/
structure Counted (numRanks : Nat) (s : GatedTaskScheduler) (kinds : List CycleKind) : Prop where
  ranks : s.numRanks = numRanks
  sides : ∃ d v, TwoSides s d v
  cycles : s.cycles = CycleCounters.of (numRanks - 1) kinds

/-- **The counters in every reachable state.** -/
theorem reach_counted {numRanks : Nat} (h : 2 ≤ numRanks) {s : GatedTaskScheduler}
    {kinds : List CycleKind} (hr : Exec cycleMachine (new numRanks) s kinds) :
    Counted numRanks s kinds := by
  refine hr.invariant (P := Counted numRanks) ⟨rfl, ⟨_, _, new_twoSides h⟩, ?_⟩ ?_
  · simp [cycles, new, CycleCounters.of]
  rintro s kinds c s' ⟨hnum, ⟨d, v, T⟩, hcycles⟩ hs
  cases hs
  refine ⟨(s.call_numRanks c).trans hnum, T.call c, ?_⟩
  cases c with
  | submitTask type batchSize estimatedCycles =>
      show s.cycles = CycleCounters.of _ (kinds ++ [])
      rw [List.append_nil, hcycles]
  | scheduleNextTask currentCycle =>
      show (s.scheduleNextTask currentCycle).2.cycles = CycleCounters.of _ (kinds ++ [])
      rw [List.append_nil, scheduleNextTask_cycles, hcycles]
  | update =>
      show s.update.cycles = CycleCounters.of _ (kinds ++ [s.cycleKind])
      rw [T.update_cycles, hnum, CycleCounters.of_append, hcycles]

/-! ## 4. The categories against the total -/

/-- The cycle categories stay within the total, and so do the two reports. -/
structure WithinTotal (s : GatedTaskScheduler) : Prop where
  categories : s.draftingCycles + s.verificationCycles + s.idleCycles + s.switchOverheadCycles ≤
    s.totalCycles
  utilization : s.getUtilization ≤ 1
  switchOverhead : s.getSwitchOverheadPercent ≤ 100

/-- A share of the total is at most 1. -/
theorem share_le_one {part total : Nat} (h : part ≤ total) : (part : ℚ) / total ≤ 1 :=
  div_le_one_of_le₀ (by exact_mod_cast h) (Nat.cast_nonneg _)

/-- The reports follow from the categories. -/
theorem withinTotal_of_categories {s : GatedTaskScheduler}
    (h : s.draftingCycles + s.verificationCycles + s.idleCycles + s.switchOverheadCycles ≤
      s.totalCycles) : s.WithinTotal := by
  refine ⟨h, ?_, ?_⟩
  · unfold getUtilization
    split
    · exact zero_le_one
    · exact share_le_one (by omega)
  · unfold getSwitchOverheadPercent
    split
    · norm_num
    · have hshare : (s.switchOverheadCycles : ℚ) / s.totalCycles ≤ 1 := share_le_one (by omega)
      linarith

/-- **Exactly when the categories stay within the total**: every drafting cycle counts once too
    often for every drafting rank but one, and only the cycles that end a switch or a task, which no
    category counts, make up for it. With two ranks there is one drafting rank, and the categories
    never exceed the total. -/
theorem cycles_within_total {numRanks : Nat} (h : 2 ≤ numRanks) {s : GatedTaskScheduler}
    {kinds : List CycleKind} (hr : Exec cycleMachine (new numRanks) s kinds) :
    s.WithinTotal ↔
      (numRanks - 2) * kinds.count .drafting ≤ kinds.count .switched + kinds.count .taskDone := by
  obtain ⟨_, _, hcycles⟩ := reach_counted h hr
  have hlength := length_eq_counts kinds
  obtain ⟨n, rfl⟩ : ∃ n, numRanks = n + 2 := ⟨numRanks - 2, by omega⟩
  simp only [cycles, CycleCounters.of, CycleCounters.mk.injEq, Nat.add_sub_cancel,
    show n + 2 - 1 = n + 1 by omega, Nat.succ_mul] at hcycles ⊢
  obtain ⟨hdraft, hverify, hidle, hswitch, htotal⟩ := hcycles
  constructor
  · intro hwithin
    have hsum := hwithin.categories
    omega
  · intro hcond
    exact withinTotal_of_categories (by omega)

/-- A drafting of two cycles on three ranks, in its first cycle. -/
def draftingCalls : List Call := [.submitTask .drafting 1 2, .scheduleNextTask 0, .update]

/-- One cycle is reported as two drafting cycles, a utilization of 200 %. -/
theorem drafting_counts_twice : ∃ s kinds, Exec cycleMachine (new 3) s kinds ∧
    s.totalCycles = 1 ∧ s.draftingCycles = 2 ∧ s.getUtilization = 2 ∧ ¬ s.WithinTotal := by
  have hrun : (cycleMachine.run draftingCalls (new 3)).any (fun r =>
      r.1.totalCycles == 1 && r.1.draftingCycles == 2 && r.1.verificationCycles == 0) = true := by
    decide
  obtain ⟨⟨s, kinds⟩, hr, hs⟩ := (Option.any_eq_true _ _).mp hrun
  simp only [Bool.and_eq_true, beq_iff_eq] at hs
  obtain ⟨⟨htotal, hdraft⟩, hverify⟩ := hs
  have huse : s.getUtilization = 2 := by
    unfold getUtilization
    rw [htotal, hdraft, hverify]
    norm_num
  refine ⟨s, kinds, exec_of_run hr, htotal, hdraft, huse, fun hwithin => ?_⟩
  have hone := hwithin.utilization
  rw [huse] at hone
  norm_num at hone

/-- Two ranks: a drafting and a pre-verification, to the end. -/
def twoRankCalls : List Call :=
  [.submitTask .drafting 1 2, .submitTask .preVerification 1 1, .scheduleNextTask 0, .update,
    .update, .update, .scheduleNextTask 3, .update, .update, .update, .update]

theorem cycles_within_total_sample : ∃ s kinds, Exec cycleMachine (new 2) s kinds ∧
    s.totalCycles = 7 ∧ s.WithinTotal := by
  have hrun : (cycleMachine.run twoRankCalls (new 2)).any (fun r => r.1.totalCycles == 7) = true := by
    decide
  obtain ⟨⟨s, kinds⟩, hr, hs⟩ := (Option.any_eq_true _ _).mp hrun
  refine ⟨s, kinds, exec_of_run hr, beq_iff_eq.mp hs,
    (cycles_within_total (by decide) (exec_of_run hr)).mpr ?_⟩
  rw [Nat.zero_mul]
  exact Nat.zero_le _

end GatedTaskScheduler

end Ahasd.PIMSimulator
