/-
  File:      Ahasd/Scheduler/Clock.lean
  Subject:   THE SCHEDULER'S CLOCK AND THE REGISTERS OF THE NPU'S TASK.

  With a target model attached a call of `cycle` steps `_cycle` once, and no other call does. TVC
  keeps the cycle at which the NPU's task started and the cycles since then (NCR): a decision sets
  the first to `_cycle`, the beacon of the core clock sets the second.

  * `step_clock`: what a call does to the clock;
  * `TVC.registers`, `Rule.registers`: what a rule does to the registers;
  * `StartedBefore`: the task started now or earlier;
  * `Advances s s' n`: a segment of a run with `n` steps of the clock.
-/
import Ahasd.Scheduler.Fallback
import Ahasd.Scheduler.Ledger

namespace Ahasd

open Std Transition OrderedMap

/-! ## 1. The clock -/

namespace SpecDecodeScheduler

section Clock

variable {s s' : SpecDecodeScheduler} {req : LangRequest}

/-- A rule never sets the clock back. -/
theorem Rule.clock {e : List Event} (h : Rule s s' e) : s.cycleCount ≤ s'.cycleCount := by
  cases h with
  | tick => exact Nat.le_succ _
  | admitOne r rest hq ht => exact Nat.le_refl _
  | unstall id => exact Nat.le_refl _
  | pop model rest hq => exact Nat.le_refl _
  | memory f g hf hg => exact Nat.le_refl _
  | draw g hg => exact Nat.le_refl _
  | orphan modelId info hinfo hact => exact Nat.le_refl _
  | beacon npuCycle => exact Nat.le_refl _
  | stray modelId base hinfo hbase => exact (LangScheduler.finishModel_frame hbase).1.ge
  | plan req hact hrun hphase =>
      obtain ⟨ssrc, deferred, heq⟩ := s.planRound_eq req
      rw [heq]
  | issue s₁ req req' model seqLength info built g hact hrun hprep hgen =>
      rw [hprep.frame]
      exact Nat.le_refl _
  | finish modelId info req hinfo hact =>
      obtain ⟨_, _, _, _, _, _, _, _, _, _, _, _, _, hframe⟩ := s.completed_frame modelId req info
      rw [hframe]

theorem tickAndAdmit_clock (s : SpecDecodeScheduler) :
    s.tickAndAdmit.cycleCount = s.cycleCount + 1 := by
  unfold tickAndAdmit
  dsimp only
  split
  · exact (LangScheduler.admitLoop_frame (prepareRequest s.targetModel.isSome)
      { s.toLangScheduler with cycleCount := s.cycleCount + 1 }).1
  · rfl

theorem IssuesTask.clock (h : IssuesTask s req s') : s'.cycleCount = s.cycleCount := by
  obtain ⟨s₁, req', model, seqLength, info, hprep, hlaunch⟩ := h
  unfold launch at hlaunch
  obtain ⟨r, _, rfl⟩ := Option.map_eq_some_iff.mp hlaunch
  rw [hprep.frame]
  rfl

theorem issuePhase_clock {issued : Bool} (h : s.issuePhase req = some (s', issued)) :
    s'.cycleCount = s.cycleCount := by
  rcases issuePhase_cases h with ⟨_, _, rfl⟩ | ⟨_, _, _, htask⟩ | ⟨_, _, htask⟩
  · rfl
  · exact htask.clock
  · obtain ⟨ssrc, deferred, hplan⟩ := s.planRound_eq req
    rw [htask.clock, hplan]

theorem issueLoop_clock {entries : List (Nat × LangRequest)} (h : issueLoop entries s = some s') :
    s'.cycleCount = s.cycleCount := by
  refine issueLoop_of_issuePhase (P := fun t => t.cycleCount = s.cycleCount) (fun t req ht => ?_)
    (fun _ _ _ _ _ ht hphase => (issuePhase_clock hphase).trans ht) h rfl
  unfold unstall
  split <;> exact ht

/-- **A call of `cycle` is one step of the clock.** -/
theorem cycle_clock (I : ProtocolOk s) (h : s.cycle = some s') :
    s'.cycleCount = s.cycleCount + 1 := by
  obtain ⟨_, _, hloop⟩ := cycle_issueLoop I h
  rw [issueLoop_clock hloop, tickAndAdmit_clock]

/-- A completion takes no time. -/
theorem finishModel_clock {modelId : Nat} (h : s.finishModel modelId = some s') :
    s'.cycleCount = s.cycleCount := by
  unfold finishModel at h
  split at h
  · obtain ⟨base, hbase, rfl⟩ := Option.map_eq_some_iff.mp h
    exact (LangScheduler.finishModel_frame hbase).1
  · next info hinfo =>
      dsimp only at h
      split at h
      · cases h
        rfl
      · next req hact =>
          cases h
          obtain ⟨_, _, _, _, _, _, _, _, _, _, _, _, _, hframe⟩ :=
            s.completed_frame modelId req info
          exact congrArg (fun t => t.cycleCount) hframe

/-- **Only `cycle` takes time, and it takes one step.** -/
theorem step_clock {a : Act} (I : ProtocolOk s) (h : machine.step s a = some s') :
    s'.cycleCount = s.cycleCount + if a = .cycle then 1 else 0 := by
  cases a with
  | cycle => exact cycle_clock I h
  | finishModel modelId => exact finishModel_clock h
  | popModel =>
      obtain ⟨r, hpop, rfl⟩ := Option.map_eq_some_iff.mp h
      unfold popModel LangScheduler.popModel at hpop
      obtain ⟨base, hbase, rfl⟩ := Option.map_eq_some_iff.mp hpop
      split at hbase <;> cases hbase
      rfl
  | ssrcBypass cid req =>
      change step s (.ssrcBypass cid req) = some s' at h
      unfold step at h
      dsimp only at h
      split at h <;> cases h <;> rfl
  | _ =>
      cases h
      rfl

end Clock

end SpecDecodeScheduler

/-! ## 2. The registers of the NPU's task -/

/-- The registers of the NPU's task: its start, and NCR. -/
def TVC.registers (t : TVC) : Nat × Nat := (t.npuTaskStart, t.ncr)

namespace SpecDecodeScheduler

/-- The registers, when the scheduler's calls reach TVC. -/
def registers (s : SpecDecodeScheduler) : Option (Nat × Nat) :=
  s.control.map TVC.registers

/-- A decision names the present clock as the start and sets NCR to 0, when it is taken. -/
theorem decidePreVerify_registers (s : SpecDecodeScheduler) (req : LangRequest) :
    (s.decidePreVerify req).2.control = s.control ∨
      (s.decidePreVerify req).2.registers = s.registers.map fun _ => (s.cycleCount, 0) := by
  have hconsult : ∀ a : AHASDIntegration, ((a.startNpuTask s.cycleCount).decidePreVerify
      req.currentLength req.plannedDraftLength).2.control.map TVC.registers =
        (a.control.map TVC.registers).map fun _ => (s.cycleCount, 0) := by
    intro a
    rw [AHASDIntegration.decidePreVerify_keeps _ _ _ fun _ _ _ _ => rfl]
    unfold AHASDIntegration.startNpuTask
    rw [AHASDIntegration.updateTvc_control, Option.map_map, Option.map_map]
    rfl
  unfold decidePreVerify
  cases ha : s.ahasd with
  | none => exact .inl rfl
  | some a =>
      dsimp only
      split
      · refine .inr ?_
        unfold registers control
        rw [ha]
        exact hconsult a
      · exact .inl rfl

/-- Preparing a task leaves TVC alone, or takes a decision. -/
theorem Prepared.registers {s s₁ : SpecDecodeScheduler} {req req' : LangRequest}
    {model : LanguageModel} {seqLength : Nat} {info : ModelMeta}
    (h : Prepared s req s₁ req' model seqLength info) :
    s₁.control = s.control ∨ s₁.registers = s.registers.map fun _ => (s.cycleCount, 0) := by
  have hahasd := h.ahasd_eq
  split at hahasd
  · unfold SpecDecodeScheduler.registers
    rw [control_congr (s := (s.decidePreVerify req).2) hahasd]
    exact s.decidePreVerify_registers req
  · exact .inl (control_congr hahasd)

/-- A completion records cycles, and leaves the registers alone. -/
theorem taskAhasd_registers (s : SpecDecodeScheduler) (req : LangRequest) (info : ModelMeta)
    (a : AHASDIntegration) :
    (s.taskAhasd req info a).control.map TVC.registers = a.control.map TVC.registers := by
  unfold taskAhasd
  dsimp only
  cases info.taskType with
  | prompt => rfl
  | autoreg => rfl
  | draft =>
      dsimp only
      split
      · exact AHASDIntegration.updateTvc_keeps _ fun _ => rfl
      · rfl
  | verify =>
      dsimp only
      rw [AHASDIntegration.recordVerifyResult_control, Option.map_map]
      rfl
  | preVerify =>
      dsimp only
      unfold AHASDIntegration.recordPreVerify
      rw [AHASDIntegration.recordVerifyResult_control, AHASDIntegration.updateTvc_control,
        Option.map_map, Option.map_map]
      rfl

/-- The beacon of the core clock sets NCR. -/
theorem beacon_registers (s : SpecDecodeScheduler) (npuCycle : Nat) :
    (s.updateAhasd (·.cycleNpuWithProgress npuCycle)).registers =
      s.registers.map fun r => (r.1, (npuCycle + 2 ^ 64 - r.1) % 2 ^ 64) := by
  refine control_map rfl fun a => ?_
  unfold AHASDIntegration.cycleNpuWithProgress
  rw [AHASDIntegration.updateTvc_control, Option.map_map, Option.map_map]
  rfl

/-- **What a rule does to the registers**: nothing, a decision, or the beacon. -/
theorem Rule.registers {s s' : SpecDecodeScheduler} {e : List Event} (h : Rule s s' e) :
    s'.registers = s.registers ∨ s'.registers = s.registers.map (fun _ => (s.cycleCount, 0)) ∨
      ∃ npuCycle, s'.registers =
        s.registers.map fun r => (r.1, (npuCycle + 2 ^ 64 - r.1) % 2 ^ 64) := by
  cases h with
  | tick => exact .inl rfl
  | admitOne r rest hq ht => exact .inl rfl
  | unstall id => exact .inl rfl
  | pop model rest hq => exact .inl rfl
  | memory f g hf hg => exact .inl rfl
  | draw g hg => exact .inl rfl
  | orphan modelId info hinfo hact => exact .inl rfl
  | stray modelId base hinfo hbase => exact .inl rfl
  | beacon npuCycle => exact .inr (.inr ⟨npuCycle, s.beacon_registers npuCycle⟩)
  | plan req hact hrun hphase =>
      obtain ⟨ssrc, deferred, heq⟩ := s.planRound_eq req
      rw [heq]
      refine .inl (control_keeps (f := s.planAhasd req) rfl fun a => ?_)
      unfold planAhasd
      split
      · rw [AHASDIntegration.decideDraftLength_control]
      · rfl
  | issue s₁ req req' model seqLength info built g hact hrun hprep hgen =>
      have hlaunched : (s₁.launched req' info built g).registers = s₁.registers := rfl
      rw [hlaunched]
      rcases hprep.registers with hsame | hdecided
      · exact .inl (congrArg (Option.map TVC.registers) hsame)
      · exact .inr (.inl hdecided)
  | finish modelId info req hinfo hact =>
      exact .inl (control_keeps (s.completed_ahasd modelId req info)
        (s.taskAhasd_registers req info))

/-- The NPU's task started now or earlier. -/
def StartedBefore (s : SpecDecodeScheduler) : Prop :=
  ∀ r ∈ s.registers, r.1 ≤ s.cycleCount

theorem StartedBefore.rule {s s' : SpecDecodeScheduler} {e : List Event} (B : StartedBefore s)
    (h : Rule s s' e) : StartedBefore s' := by
  have hclock := h.clock
  intro r hr
  rcases h.registers with hsame | hdecided | ⟨npuCycle, hbeacon⟩
  · rw [hsame] at hr
    exact (B r hr).trans hclock
  · rw [hdecided] at hr
    obtain ⟨_, _, rfl⟩ := Option.map_eq_some_iff.mp hr
    exact hclock
  · rw [hbeacon] at hr
    obtain ⟨r', hr', rfl⟩ := Option.map_eq_some_iff.mp hr
    exact (B r' hr').trans hclock

theorem Rule.registers_isSome {s s' : SpecDecodeScheduler} {e : List Event} (h : Rule s s' e) :
    s'.registers.isSome = s.registers.isSome := by
  rcases h.registers with hsame | hdecided | ⟨npuCycle, hbeacon⟩
  · rw [hsame]
  · rw [hdecided, Option.isSome_map]
  · rw [hbeacon, Option.isSome_map]

/-! ## 3. Segments of a run, with their steps of the clock -/

/-- A segment of a run, with `n` steps of the clock. -/
structure Advances (s s' : SpecDecodeScheduler) (n : Nat) : Prop where
  rules : ∃ e, Chain Rule s s' e
  clock : s'.cycleCount = s.cycleCount + n

namespace Advances

variable {s s' s'' : SpecDecodeScheduler} {n m : Nat}

theorem refl (s : SpecDecodeScheduler) : Advances s s 0 := ⟨⟨[], .nil s⟩, rfl⟩

theorem trans (h : Advances s s' n) (h' : Advances s' s'' m) : Advances s s'' (n + m) := by
  obtain ⟨e, hc⟩ := h.rules
  obtain ⟨e', hc'⟩ := h'.rules
  exact ⟨⟨e ++ e', hc.trans hc'⟩, by rw [h'.clock, h.clock, Nat.add_assoc]⟩

theorem rule {e : List Event} (h : Rule s s' e) (hclock : s'.cycleCount = s.cycleCount) :
    Advances s s' 0 :=
  ⟨⟨e, .one h⟩, hclock⟩

theorem step {a : Act} (I : ProtocolOk s) (h : machine.step s a = some s') :
    Advances s s' (if a = .cycle then 1 else 0) :=
  ⟨⟨_, step_chain I h⟩, step_clock I h⟩

theorem protocol (h : Advances s s' n) (I : ProtocolOk s) : ProtocolOk s' := by
  obtain ⟨e, hc⟩ := h.rules
  exact I.chain hc

theorem startedBefore (h : Advances s s' n) (B : StartedBefore s) : StartedBefore s' := by
  obtain ⟨e, hc⟩ := h.rules
  exact hc.preserves (P := fun t _ => StartedBefore t) (h := []) (fun _ _ _ _ B hr => B.rule hr) B

theorem registers_isSome (h : Advances s s' n) : s'.registers.isSome = s.registers.isSome := by
  obtain ⟨e, hc⟩ := h.rules
  exact hc.preserves (P := fun t _ => t.registers.isSome = s.registers.isSome) (h := [])
    (fun _ _ _ _ hsome hr => hr.registers_isSome.trans hsome) rfl

/-- The calls other than `cycle` take no time. -/
theorem run {as : List Act} {h : List Event} (I : ProtocolOk s) (hno : .cycle ∉ as)
    (hr : machine.run as s = some (s', h)) : Advances s s' 0 := by
  refine machine.run_along (C := fun _ a => a ≠ .cycle) (P := fun t _ => Advances s t 0) (.refl s)
    (fun t _ a t' hadv hne hs => ?_) hr fun bs a hb _ _ _ heq => hno ?_
  · have hstep := Advances.step (hadv.protocol I) hs
    rw [if_neg hne] at hstep
    exact hadv.trans hstep
  · rw [← heq]
    exact hb.subset (List.mem_append_right bs (List.mem_singleton.mpr rfl))

end Advances

end SpecDecodeScheduler

end Ahasd
