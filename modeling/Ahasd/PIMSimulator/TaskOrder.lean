/-
  File:      Ahasd/PIMSimulator/TaskOrder.lean
  Subject:   THE ORDER OF THE TASKS OF THE GATED SCHEDULER, AND HOW LONG EACH HOLDS ITS RANKS
             (GatedTaskScheduler.h).

  The active task is the front of the queue. Three functions touch it: `start_task` marks the ranks,
  `update` counts them down, and the `update` in which no rank works any more takes it from the
  queue. Submissions come at any time.

  * `TaskEvent`, `orderMachine`: the calls in any order, and what they show; `TaskLog`: what a
    history says of the tasks;
  * `held`: the cycles that the 32 bits of a rank keep of a task;
  * `Stage`: the invariant; `Stage.scheduleNextTask`, `Stage.update`: its steps, with the calls
    still due;
  * `run_stage`, `drive_done`: every run keeps it, and calls that go on finish every task;
  * **`tasks_in_order`**: the order, and exactly when each task holds its ranks as estimated.
-/
import Ahasd.PIMSimulator.CycleCategories

namespace Ahasd.PIMSimulator

open Transition

namespace TaskDescriptor

/-- The task as it was submitted: its start is not noted yet. -/
def submitted (t : TaskDescriptor) : TaskDescriptor := { t with startCycle := 0 }

/-- The cycles the ranks are held: what 32 bits keep of the estimate. A task without a side marks no
    rank. -/
def held (t : TaskDescriptor) : Nat :=
  match t.type with
  | .idle => 0
  | _ => t.estimatedCycles % 2 ^ 32

/-- The estimate fits the countdown of a rank, and a task without a side estimates nothing. -/
def Holdable (t : TaskDescriptor) : Prop :=
  match t.type with
  | .idle => t.estimatedCycles = 0
  | _ => t.estimatedCycles < 2 ^ 32

theorem held_eq_iff (t : TaskDescriptor) : t.held = t.estimatedCycles ↔ t.Holdable := by
  unfold held Holdable
  cases t.type with
  | idle => exact eq_comm
  | drafting | preVerification =>
      exact ⟨fun h => h ▸ Nat.mod_lt _ (Nat.two_pow_pos _), Nat.mod_eq_of_lt⟩

end TaskDescriptor

namespace GatedTaskScheduler

/-! ## 1. What the calls show -/

/-- The ranks of a side. -/
def ranksOf (numRanks : Nat) : PIMTaskType → List Nat
  | .drafting => List.range (numRanks - 1)
  | .preVerification => [numRanks - 1]
  | .idle => []

/-- The ranks that work in this cycle. -/
def workingRanks (s : GatedTaskScheduler) : List Nat :=
  (List.range s.numRanks).filter fun i => (s.rankStates[i]?).any RankState.working

/-- What happens to the tasks. -/
inductive TaskEvent where
  | submitted (t : TaskDescriptor)
  | started
  | occupied (ranks : List Nat)
  | completed (t : TaskDescriptor)
  deriving DecidableEq, Repr

/-- A task became active. -/
def startShown (s' : GatedTaskScheduler) : List TaskEvent :=
  if s'.activeTask then [.started] else []

/-- What a call shows. The task that completes is the front of the queue. -/
def taskEvents (s : GatedTaskScheduler) (c : Call) (s' : GatedTaskScheduler) : List TaskEvent :=
  match c with
  | .submitTask type batchSize estimatedCycles =>
      [.submitted { type := type, batchSize := batchSize, estimatedCycles := estimatedCycles }]
  | .scheduleNextTask _ => if s.activeTask then [] else startShown s'
  | .update =>
      if s.activeTask then
        if s'.activeTask then [.occupied s.workingRanks]
        else s.pendingTasks.head?.toList.map fun t => .completed t.submitted
      else startShown s'

/-- The scheduler as a machine that shows its tasks. -/
def orderMachine : Machine GatedTaskScheduler Call TaskEvent where
  step s c := some (s.call c)
  obs s c s' := s.taskEvents c s'

/-- The tasks of a history: all submitted ones, the completed ones, each with the ranks that worked
    in each cycle since its start, and the cycles of the task that runs. -/
structure TaskLog where
  submitted : List TaskDescriptor := []
  served : List (TaskDescriptor × List (List Nat)) := []
  current : List (List Nat) := []

/-- One event. -/
def TaskLog.event (l : TaskLog) : TaskEvent → TaskLog
  | .submitted t => { l with submitted := l.submitted ++ [t] }
  | .started => { l with current := [] }
  | .occupied ranks => { l with current := l.current ++ [ranks] }
  | .completed t => { l with served := l.served ++ [(t, l.current)] }

/-- The log of a history. -/
def TaskLog.of (h : List TaskEvent) : TaskLog := h.foldl TaskLog.event {}

theorem TaskLog.of_append (h e : List TaskEvent) :
    TaskLog.of (h ++ e) = e.foldl TaskLog.event (TaskLog.of h) :=
  List.foldl_append

/-- The tasks that completed. -/
def TaskLog.completed (l : TaskLog) : List TaskDescriptor := l.served.map Prod.fst

/-! ## 2. The invariant -/

/-- The task that runs has held its ranks for `m` cycles, and its side has the rest of them left. -/
def Left (d v : RankState) (t : TaskDescriptor) (m : Nat) : Prop :=
  match t.type with
  | .drafting => d.busy = true ∧ m + d.remainingCycles = t.held
  | .preVerification => v.busy = true ∧ m + v.remainingCycles = t.held
  | .idle => d.busy = false ∧ v.busy = false ∧ m = 0

/-- The cycles that the busy side has left. -/
def cyclesLeft (d v : RankState) : Nat :=
  (if d.busy then d.remainingCycles else 0) + if v.busy then v.remainingCycles else 0

/-- **The invariant**, for a log of the run: what was submitted was completed or waits, in one
    order, and every completed task held its ranks for its cycles. -/
structure Stage (numRanks : Nat) (s : GatedTaskScheduler) (d v : RankState) (l : TaskLog) :
    Prop where
  ranks : s.numRanks = numRanks
  sides : TwoSides s d v
  queue : l.submitted = l.completed ++ s.pendingTasks.map TaskDescriptor.submitted
  served : ∀ p ∈ l.served, p.2 = List.replicate p.1.held (ranksOf numRanks p.1.type)
  active : s.activeTask = true → ∃ t rest m, s.pendingTasks = t :: rest ∧
    l.current = List.replicate m (ranksOf numRanks t.type) ∧ Left d v t m

/-- The rounds of calls that the waiting tasks still take: those of the front depend on how far it
    is. -/
def due (s : GatedTaskScheduler) (d v : RankState) : Nat :=
  match s.pendingTasks with
  | [] => 0
  | t :: rest =>
      (if s.activeTask then cyclesLeft d v + 1
        else if s.switching then t.held + s.currentSwitchDelay + 2
        else t.held + s.switchLatencyCycles + 3) +
        (rest.map fun t => t.held + s.switchLatencyCycles + 3).sum

section Sides

variable {s : GatedTaskScheduler} {d v : RankState} (T : TwoSides s d v)

include T

theorem TwoSides.get_drafting {i : Nat} (hi : i < s.numRanks - 1) : s.rankStates[i]? = some d := by
  rw [T.ranks, List.getElem?_append_left (by simpa using hi)]
  simp [hi]

theorem TwoSides.get_last : s.rankStates[s.numRanks - 1]? = some v := by
  rw [T.ranks, List.getElem?_append_right (by simp)]
  simp

/-- The ranks that work are those of the sides that work. -/
theorem TwoSides.workingRanks_eq : s.workingRanks =
    (if d.working then ranksOf s.numRanks .drafting else []) ++
      if v.working then ranksOf s.numRanks .preVerification else [] := by
  have htwo := T.two
  have hlast : List.range s.numRanks = List.range (s.numRanks - 1) ++ [s.numRanks - 1] := by
    rw [← List.range_succ]
    congr 1
    omega
  have hdrafts : (List.range (s.numRanks - 1)).filter
      (fun i => (s.rankStates[i]?).any RankState.working) =
        (List.range (s.numRanks - 1)).filter fun _ => d.working :=
    List.filter_congr fun i hi => by rw [T.get_drafting (List.mem_range.mp hi)]; rfl
  unfold workingRanks ranksOf
  rw [hlast, List.filter_append, hdrafts]
  congr 1
  · cases d.working <;> simp
  · rw [List.filter_singleton, T.get_last]
    cases hv : v.working <;> simp [hv]

theorem TwoSides.any_working : s.rankStates.any RankState.working = (d.working || v.working) := by
  have htwo := T.two
  rw [T.ranks, List.any_append, List.any_replicate, if_neg (by omega : ¬ s.numRanks - 1 = 0)]
  simp

/-- What is left of the running task. -/
theorem TwoSides.left_add {t : TaskDescriptor} {m : Nat} (L : Left d v t m) :
    m + cyclesLeft d v = t.held := by
  unfold Left at L
  unfold cyclesLeft
  cases htype : t.type with
  | idle =>
      simp only [htype] at L
      simp [L.1, L.2.1, L.2.2, TaskDescriptor.held, htype]
  | drafting =>
      simp only [htype] at L
      have hv : v.busy = false := T.apart.resolve_left (by simp [L.1])
      simp [L.1, hv, L.2]
  | preVerification =>
      simp only [htype] at L
      have hd : d.busy = false := T.apart.resolve_right (by simp [L.1])
      simp [L.1, hd, L.2]

/-- One cycle of the running task: the ranks of its side work, as long as it has cycles left. -/
theorem TwoSides.left_tick {t : TaskDescriptor} {m : Nat} (L : Left d v t m) :
    if s.rankStates.any RankState.working then
      s.workingRanks = ranksOf s.numRanks t.type ∧ Left d.tick v.tick t (m + 1)
    else m = t.held := by
  have hadd := T.left_add L
  rw [T.any_working, T.workingRanks_eq]
  unfold Left at L ⊢
  unfold cyclesLeft at hadd
  cases htype : t.type with
  | idle =>
      simp only [htype] at L
      simp [RankState.working, L.1, L.2.1, L.2.2, TaskDescriptor.held, htype]
  | drafting =>
      simp only [htype] at L
      have hv : v.busy = false := T.apart.resolve_left (by simp [L.1])
      rcases Nat.eq_zero_or_pos d.remainingCycles with hzero | hpos
      · simp [RankState.working, L.1, hv, hzero, ← L.2]
      · have hone : m + 1 + (d.remainingCycles - 1) = t.held := by omega
        simp [RankState.working, RankState.tick, L.1, hv, hpos, hone]
  | preVerification =>
      simp only [htype] at L
      have hd : d.busy = false := T.apart.resolve_right (by simp [L.1])
      rcases Nat.eq_zero_or_pos v.remainingCycles with hzero | hpos
      · simp [RankState.working, L.1, hd, hzero, ← L.2]
      · have hone : m + 1 + (v.remainingCycles - 1) = t.held := by omega
        simp [RankState.working, RankState.tick, L.1, hd, hpos, hone]

end Sides

/-! ## 3. The steps -/

theorem due_eq_zero {s : GatedTaskScheduler} {d v : RankState} :
    due s d v = 0 ↔ s.pendingTasks = [] := by
  unfold due
  split
  · next hq => simp [hq]
  · next t rest hq =>
      rw [hq]
      refine ⟨fun h => ?_, fun h => nomatch h⟩
      split at h
      · omega
      · split at h <;> omega

section Steps

variable {numRanks : Nat} {s : GatedTaskScheduler} {d v : RankState} {l : TaskLog}
  (S : Stage numRanks s d v l)

include S

/-- A call that leaves the tasks alone keeps the invariant. -/
theorem Stage.leaves {s' : GatedTaskScheduler} (F : Leaves s s')
    (hswitch : s'.switching = true → s'.activeTask = false) : Stage numRanks s' d v l := by
  exact ⟨F.num.trans S.ranks, S.sides.leaves F hswitch, by rw [F.queue]; exact S.queue, S.served,
    fun h => by rw [F.queue]; exact S.active (F.active.symm.trans h)⟩

/-- A submission joins the end of the queue. -/
theorem Stage.submitTask (type : PIMTaskType) (batchSize estimatedCycles : Nat) :
    Stage numRanks (s.submitTask type batchSize estimatedCycles).2 d v
      (l.event (.submitted
        { type := type, batchSize := batchSize, estimatedCycles := estimatedCycles })) := by
  have T := S.sides
  refine ⟨S.ranks, ⟨T.two, T.ranks, T.last, T.drafts, T.verifies, T.apart, T.active, T.switching⟩,
    ?_, S.served, fun hactive => ?_⟩
  · show l.submitted ++ [_] = l.completed ++ (s.pendingTasks ++ [_]).map _
    rw [S.queue, List.map_append, List.append_assoc]
    rfl
  · obtain ⟨t, rest, m, hq, hcurrent, hleft⟩ := S.active hactive
    refine ⟨t, rest ++ [⟨type, 0, batchSize, 0, estimatedCycles, false⟩], m, ?_, hcurrent, hleft⟩
    show s.pendingTasks ++ [_] = _
    rw [hq, List.cons_append]

/-- The front of the queue starts: from here it has all its cycles left. -/
theorem Stage.startTask (hactive : s.activeTask = false) (hswitch : s.switching = false)
    {t : TaskDescriptor} {rest : List TaskDescriptor} (hq : s.pendingTasks = t :: rest)
    (currentCycle : Nat) :
    ∃ d' v', Stage numRanks (s.startTask t currentCycle) d' v' (l.event .started) ∧
      due (s.startTask t currentCycle) d' v' =
        t.held + 1 + (rest.map fun t => t.held + s.switchLatencyCycles + 3).sum := by
  have T' := S.sides.started hactive hswitch t currentCycle
  obtain ⟨hd, hv⟩ := S.sides.active hactive
  obtain ⟨hpending, hstarted, hlatency, hnum⟩ := startTask_fields s t currentCycle
  rw [hq, List.modifyHead_cons] at hpending
  have L : Left (if t.type = .drafting then d.take t else d)
      (if t.type = .preVerification then v.take t else v) { t with startCycle := currentCycle } 0 := by
    unfold Left
    cases htype : t.type with
    | idle => exact ⟨by simpa using hd, by simpa using hv, rfl⟩
    | drafting => simp [RankState.take, TaskDescriptor.held, htype]
    | preVerification => simp [RankState.take, TaskDescriptor.held, htype]
  refine ⟨_, _, ⟨hnum.trans S.ranks, T', ?_, S.served, fun _ => ?_⟩, ?_⟩
  · show l.submitted = l.completed ++ _
    rw [S.queue, hpending, hq]
    rfl
  · exact ⟨_, rest, 0, hpending, rfl, L⟩
  · have hleft := T'.left_add L
    rw [Nat.zero_add] at hleft
    unfold due
    rw [hpending]
    dsimp only
    rw [if_pos hstarted, hleft, hlatency]
    rfl

/-- **What `schedule_next_task` keeps**: no call becomes due, and waiting tasks are under way after
    it. -/
theorem Stage.scheduleNextTask (currentCycle : Nat) :
    ∃ d' v', Stage numRanks (s.scheduleNextTask currentCycle).2 d' v'
        ((s.taskEvents (.scheduleNextTask currentCycle) (s.scheduleNextTask currentCycle).2).foldl
          TaskLog.event l) ∧
      due (s.scheduleNextTask currentCycle).2 d' v' ≤ due s d v ∧
      (s.pendingTasks ≠ [] → (s.scheduleNextTask currentCycle).2.isBusy = true) := by
  unfold taskEvents startShown
  dsimp only
  rcases schedule_cases s currentCycle with ⟨hsame, hrest⟩ |
    ⟨t, rest, hq, hactive, hswitch, ⟨_, hswitched⟩ | ⟨_, hstarted⟩⟩
  · rw [hsame]
    refine ⟨d, v, ?_, le_rfl, fun hq => hrest.resolve_right hq⟩
    cases hactive : s.activeTask <;> exact S
  · obtain ⟨d', v', T'⟩ := S.sides.initiateTaskSwitch hactive t.type
    obtain ⟨hpending, hact, hswitching, hdelay, hlatency, hnum⟩ := initiateTaskSwitch_fields s t.type
    rw [hswitched, hact, hactive]
    refine ⟨d', v', ⟨hnum.trans S.ranks, T', by rw [hpending]; exact S.queue, S.served, fun h => ?_⟩,
      ?_, fun _ => ?_⟩
    · rw [hact, hactive] at h
      cases h
    · unfold due
      rw [hpending, hq, hact, hactive, hswitching, hswitch, hdelay, hlatency]
      simp only [Bool.false_eq_true, if_false, if_true]
      omega
    · rw [isBusy, hswitching, Bool.or_true]
  · obtain ⟨d', v', S', hdue⟩ := S.startTask hactive hswitch hq currentCycle
    have hnow := (startTask_fields s t currentCycle).2.1
    rw [hstarted, hactive, hnow]
    refine ⟨d', v', S', ?_, fun _ => ?_⟩
    · rw [hdue]
      unfold due
      rw [hq, hactive, hswitch]
      simp only [Bool.false_eq_true, if_false]
      omega
    · rw [isBusy, hnow, Bool.true_or]

/-- A cycle of the running task: it goes on, or it is the one that completes it. -/
theorem Stage.runTask (hactive : s.activeTask = true) {s' : GatedTaskScheduler} (F : Ticks s s') :
    ∃ d' v', Stage numRanks s' d' v' ((s.taskEvents .update s').foldl TaskLog.event l) ∧
      due s' d' v' < due s d v := by
  obtain ⟨t, rest, m, hq, hcurrent, L⟩ := S.active hactive
  have htick := S.sides.left_tick L
  have hadd := S.sides.left_add L
  have T' : TwoSides s' d.tick v.tick :=
    S.sides.tick F.ranks F.num F.last (fun h => F.active.symm.trans h)
      (fun h => absurd (F.switching.symm.trans h) Bool.false_ne_true)
  have hpending := F.queue
  have hdone := F.active
  unfold taskEvents
  dsimp only
  rw [hactive, hdone]
  cases hworks : s.rankStates.any RankState.working with
  | true =>
      rw [hworks, if_pos rfl] at htick hpending
      obtain ⟨hwork, L'⟩ := htick
      have hadd' := T'.left_add L'
      refine ⟨_, _, ⟨F.num.trans S.ranks, T', by rw [hpending]; exact S.queue, S.served,
        fun _ => ?_⟩, ?_⟩
      · refine ⟨t, rest, m + 1, hpending.trans hq, ?_, L'⟩
        show l.current ++ [s.workingRanks] = _
        rw [hcurrent, hwork, S.ranks, List.replicate_succ']
      · unfold due
        rw [hpending, hq, hdone, hworks, hactive, F.latency]
        simp only [if_true]
        omega
  | false =>
      rw [hworks, if_neg Bool.false_ne_true] at htick hpending
      rw [hq, List.drop_succ_cons, List.drop_zero] at hpending
      rw [hworks] at hdone
      refine ⟨_, _, ⟨F.num.trans S.ranks, T', ?_, ?_, fun h => ?_⟩, ?_⟩
      · show (((s.pendingTasks.head?.toList.map _).foldl TaskLog.event l).submitted) = _
        rw [hq, hpending]
        show l.submitted = (l.served ++ [(t.submitted, l.current)]).map Prod.fst ++ _
        rw [S.queue, hq, List.map_append, List.append_assoc]
        rfl
      · rw [hq]
        intro p hp
        rcases List.mem_append.mp hp with hp | hp
        · exact S.served p hp
        · rw [List.mem_singleton.mp hp, hcurrent, htick]
          rfl
      · rw [hdone] at h
        cases h
      · unfold due
        rw [hpending, hq, hdone, F.switching, hactive, F.latency]
        cases rest with
        | nil => simp only [if_true]; omega
        | cons t' rest =>
            simp only [Bool.false_eq_true, if_false, if_true, List.map_cons, List.sum_cons]
            omega

/-- **What `update` keeps**: a busy scheduler comes one call closer to the end. -/
theorem Stage.update :
    ∃ d' v', Stage numRanks s.update d' v' ((s.taskEvents .update s.update).foldl TaskLog.event l) ∧
      due s.update d' v' ≤ due s d v ∧
      (s.isBusy = true → s.pendingTasks ≠ [] → due s.update d' v' < due s d v) := by
  rcases update_cases s with ⟨hswitch, F, hswitching, hdelay⟩ | ⟨hswitch, s₁, F, hswitched, hupdate⟩ |
    ⟨_, hactive, F⟩ | ⟨hswitch, hactive, F, hswitched⟩
  · -- a cycle of the switch
    have hactive := S.sides.switching hswitch
    have hstill := F.active.trans hactive
    have hdue : due s.update d v ≤ due s d v ∧
        (s.pendingTasks ≠ [] → due s.update d v < due s d v) := by
      unfold due
      rw [F.queue, hstill, hactive, hswitching, hswitch, F.latency]
      cases s.pendingTasks with
      | nil => exact ⟨le_rfl, fun h => absurd rfl h⟩
      | cons t rest =>
          simp only [Bool.false_eq_true, if_false, if_true]
          omega
    refine ⟨d, v, ?_, hdue.1, fun _ => hdue.2⟩
    unfold taskEvents startShown
    dsimp only
    rw [hactive, hstill]
    exact S.leaves F fun _ => hstill
  · -- the switch is over: the front of the queue starts
    have hactive := S.sides.switching hswitch
    have hstill := F.active.trans hactive
    have S₁ : Stage numRanks s₁ d v l := S.leaves F fun _ => hstill
    unfold taskEvents startShown
    dsimp only
    rw [hactive]
    cases hq : s.pendingTasks with
    | nil =>
        rw [hq] at hupdate
        rw [hupdate, hstill]
        refine ⟨d, v, S₁, ?_, fun _ h => absurd rfl h⟩
        rw [due_eq_zero.mpr (F.queue.trans hq)]
        exact Nat.zero_le _
    | cons t rest =>
        rw [hq] at hupdate
        rw [hupdate, (startTask_fields s₁ t s₁.totalCycles).2.1]
        obtain ⟨d', v', S', hdue⟩ := S₁.startTask hstill hswitched (F.queue.trans hq) s₁.totalCycles
        have hless : due (s₁.startTask t s₁.totalCycles) d' v' < due s d v := by
          rw [hdue, F.latency]
          unfold due
          rw [hq, hactive, hswitch]
          simp only [Bool.false_eq_true, if_false, if_true]
          omega
        exact ⟨d', v', S', hless.le, fun _ _ => hless⟩
  · obtain ⟨d', v', S', hless⟩ := S.runTask hactive F
    exact ⟨d', v', S', hless.le, fun _ _ => hless⟩
  · -- nothing runs
    have hstill := F.active.trans hactive
    unfold taskEvents startShown isBusy
    dsimp only
    rw [hactive, hstill, hswitch]
    refine ⟨d, v, S.leaves F fun _ => hstill, ?_, fun h => (Bool.false_ne_true h).elim⟩
    unfold due
    rw [F.queue, hstill, hactive, hswitched, hswitch, F.latency]
    cases s.pendingTasks <;> exact le_rfl

end Steps

/-! ## 4. Runs -/

theorem new_stage {numRanks : Nat} (h : 2 ≤ numRanks) :
    Stage numRanks (new numRanks) { enabled := true } {} {} :=
  ⟨rfl, new_twoSides h, rfl, fun _ hp => absurd hp List.not_mem_nil, Bool.noConfusion⟩

/-- **The tasks of every run.** -/
theorem run_stage {numRanks : Nat} {s₀ s : GatedTaskScheduler} {d₀ v₀ : RankState} {l₀ : TaskLog}
    {h : List TaskEvent} (S : Stage numRanks s₀ d₀ v₀ l₀) (hr : Exec orderMachine s₀ s h) :
    ∃ d v, Stage numRanks s d v (h.foldl TaskLog.event l₀) := by
  refine hr.invariant (P := fun s h => ∃ d v, Stage numRanks s d v (h.foldl TaskLog.event l₀))
    ⟨_, _, S⟩ ?_
  rintro s h c s' ⟨d, v, S⟩ hs
  cases hs
  rw [List.foldl_append]
  cases c with
  | submitTask type batchSize estimatedCycles =>
      exact ⟨d, v, S.submitTask type batchSize estimatedCycles⟩
  | scheduleNextTask currentCycle =>
      obtain ⟨d', v', S', _⟩ := S.scheduleNextTask currentCycle
      exact ⟨d', v', S'⟩
  | update =>
      obtain ⟨d', v', S', _⟩ := S.update
      exact ⟨d', v', S'⟩

/-- The calls that drive the scheduler on, without submissions: a `schedule_next_task` and an
    `update` a cycle, at the cycles of a clock. -/
def driveCalls (clocks : List Nat) : List Call :=
  clocks.flatMap fun currentCycle => [.scheduleNextTask currentCycle, .update]

/-- The scheduler driven on. -/
def drive (s : GatedTaskScheduler) (clocks : List Nat) : GatedTaskScheduler :=
  (driveCalls clocks).foldl call s

theorem drive_cons (s : GatedTaskScheduler) (currentCycle : Nat) (clocks : List Nat) :
    s.drive (currentCycle :: clocks) =
      ((s.scheduleNextTask currentCycle).2.update).drive clocks := rfl

/-- **Calls that go on complete every task.** -/
theorem drive_done (clocks : List Nat) {numRanks : Nat} {s : GatedTaskScheduler}
    {d v : RankState} {l : TaskLog} (S : Stage numRanks s d v l) (h : due s d v ≤ clocks.length) :
    (s.drive clocks).pendingTasks = [] := by
  induction clocks generalizing s d v l with
  | nil => exact due_eq_zero.mp (Nat.le_zero.mp h)
  | cons currentCycle clocks ih =>
      obtain ⟨d₁, v₁, S₁, hle₁, hbusy⟩ := S.scheduleNextTask currentCycle
      obtain ⟨d₂, v₂, S₂, hle₂, hless⟩ := S₁.update
      rw [drive_cons]
      refine ih S₂ ?_
      rw [List.length_cons] at h
      by_cases hq : (s.scheduleNextTask currentCycle).2.pendingTasks = []
      · rw [due_eq_zero.mpr hq, Nat.le_zero] at hle₂
        rw [hle₂]
        exact Nat.zero_le _
      · have hne : s.pendingTasks ≠ [] := by
          intro hnil
          rw [due_eq_zero.mpr hnil, Nat.le_zero, due_eq_zero] at hle₁
          exact hq hle₁
        have hlt := hless (hbusy hne) hq
        omega

/-- Only a submission submits. -/
theorem taskEvents_submitted {s s' : GatedTaskScheduler} {c : Call}
    (hc : ∀ type batchSize cycles, c ≠ .submitTask type batchSize cycles) (l : TaskLog) :
    ((s.taskEvents c s').foldl TaskLog.event l).submitted = l.submitted := by
  unfold taskEvents startShown
  cases c with
  | submitTask type batchSize cycles => exact absurd rfl (hc type batchSize cycles)
  | scheduleNextTask currentCycle => dsimp only; split <;> [skip; split] <;> rfl
  | update =>
      dsimp only
      split
      · split
        · rfl
        · cases s.pendingTasks <;> rfl
      · split <;> rfl

/-- The drive is a run, and it submits nothing. -/
theorem drive_run (clocks : List Nat) (s : GatedTaskScheduler) : ∃ h,
    Exec orderMachine s (s.drive clocks) h ∧
      ∀ l, (h.foldl TaskLog.event l).submitted = l.submitted := by
  induction clocks generalizing s with
  | nil => exact ⟨[], .start, fun _ => rfl⟩
  | cons currentCycle clocks ih =>
      have hschedule := Exec.one (M := orderMachine) (s := s) (a := .scheduleNextTask currentCycle) rfl
      have hupdate := Exec.one (M := orderMachine) (s := (s.scheduleNextTask currentCycle).2)
        (a := .update) rfl
      obtain ⟨h, hr, hsame⟩ := ih (s.scheduleNextTask currentCycle).2.update
      refine ⟨_, (hschedule.trans hupdate).trans hr, fun l => ?_⟩
      rw [List.foldl_append, hsame, List.foldl_append]
      exact (taskEvents_submitted (c := .update) (fun _ _ _ => Call.noConfusion) _).trans
        (taskEvents_submitted (c := .scheduleNextTask currentCycle) (fun _ _ _ => Call.noConfusion) l)

/-- **The tasks of the scheduler, over any calls with submissions at any time.** What was submitted
    is what completed and then what waits, in one order; calls that go on complete all of it, each
    task once; and the completed tasks held their ranks for exactly their estimates if and only if
    each estimate fits the countdown of a rank. -/
theorem tasks_in_order {numRanks : Nat} (h : 2 ≤ numRanks) {s : GatedTaskScheduler}
    {hist : List TaskEvent} (hr : Exec orderMachine (new numRanks) s hist) :
    (TaskLog.of hist).submitted =
        (TaskLog.of hist).completed ++ s.pendingTasks.map TaskDescriptor.submitted ∧
      (∃ n, ∀ clocks : List Nat, n ≤ clocks.length → ∃ e, Exec orderMachine s (s.drive clocks) e ∧
        (TaskLog.of (hist ++ e)).completed = (TaskLog.of hist).submitted) ∧
      ((∀ p ∈ (TaskLog.of hist).served,
          p.2 = List.replicate p.1.estimatedCycles (ranksOf numRanks p.1.type)) ↔
        ∀ t ∈ (TaskLog.of hist).completed, t.Holdable) := by
  obtain ⟨d, v, S⟩ := run_stage (new_stage h) hr
  refine ⟨S.queue, ⟨due s d v, fun clocks hlong => ?_⟩, ?_⟩
  · obtain ⟨e, he, hsame⟩ := drive_run clocks s
    obtain ⟨d', v', S'⟩ := run_stage S he
    have hqueue := S'.queue
    rw [drive_done clocks S hlong, List.map_nil, List.append_nil, hsame] at hqueue
    refine ⟨e, he, ?_⟩
    rw [TaskLog.of_append]
    exact hqueue.symm
  · constructor
    · intro hall t ht
      obtain ⟨p, hp, rfl⟩ := List.mem_map.mp ht
      have hheld := (S.served p hp).symm.trans (hall p hp)
      rw [← TaskDescriptor.held_eq_iff]
      simpa using congrArg List.length hheld
    · intro hall p hp
      have hheld := p.1.held_eq_iff.mpr (hall p.1 (List.mem_map_of_mem hp))
      rw [S.served p hp, hheld]

/-- A drafting of three cycles and a pre-verification of one, on two ranks, both completed. -/
theorem tasks_in_order_sample : ∃ s hist, Exec orderMachine (new 2) s hist ∧
    (TaskLog.of hist).completed.map TaskDescriptor.type = [.drafting, .preVerification] ∧
    (TaskLog.of hist).served.map Prod.snd = [[[0], [0], [0]], [[1]]] ∧
    ∀ p ∈ (TaskLog.of hist).served, p.2 = List.replicate p.1.estimatedCycles (ranksOf 2 p.1.type) := by
  have hr : ∃ r, orderMachine.run [.submitTask .drafting 1 3, .scheduleNextTask 0,
      .submitTask .preVerification 1 1, .update, .update, .update, .update, .scheduleNextTask 4,
      .update, .update, .update, .update] (new 2) = some r := ⟨_, rfl⟩
  obtain ⟨⟨s, hist⟩, hr⟩ := hr
  have hserved : (TaskLog.of hist).served =
      [({ type := .drafting, batchSize := 1, estimatedCycles := 3 }, [[0], [0], [0]]),
        ({ type := .preVerification, batchSize := 1, estimatedCycles := 1 }, [[1]])] := by
    rw [← (Prod.mk.inj (Option.some.inj hr)).2]
    rfl
  refine ⟨s, hist, exec_of_run hr, ?_, ?_, (tasks_in_order (by decide) (exec_of_run hr)).2.2.mpr ?_⟩
  · rw [TaskLog.completed, hserved]
    rfl
  · rw [hserved]
    rfl
  · rw [TaskLog.completed, hserved]
    intro t ht
    simp only [List.map_cons, List.map_nil, List.mem_cons, List.not_mem_nil, or_false] at ht
    rcases ht with rfl | rfl <;> simp [TaskDescriptor.Holdable]

/-- **A task that holds its rank for no cycle**: of an estimate of 2³² cycles the countdown keeps
    0. -/
theorem long_task_not_held : ∃ s hist, Exec orderMachine (new 2) s hist ∧
    ¬ ∀ p ∈ (TaskLog.of hist).served,
      p.2 = List.replicate p.1.estimatedCycles (ranksOf 2 p.1.type) := by
  have hr : ∃ r, orderMachine.run [.submitTask .drafting 1 4294967296, .scheduleNextTask 0, .update]
      (new 2) = some r := ⟨_, rfl⟩
  obtain ⟨⟨s, hist⟩, hr⟩ := hr
  have hserved : (TaskLog.of hist).served =
      [({ type := .drafting, batchSize := 1, estimatedCycles := 4294967296 }, [])] := by
    rw [← (Prod.mk.inj (Option.some.inj hr)).2]
    rfl
  refine ⟨s, hist, exec_of_run hr, fun h => ?_⟩
  have hnone := h _ (by rw [hserved]; exact List.mem_singleton.mpr rfl)
  have hlength := congrArg List.length hnone
  rw [List.length_replicate] at hlength
  exact absurd hlength (by decide)

end GatedTaskScheduler

end Ahasd.PIMSimulator
