/-
  File:      Ahasd/Scheduler/Machine.lean
  Subject:   THE SCHEDULER AS A MACHINE: the calls it receives, in any order, and what an observer
             of the calls sees.

  The simulator calls `cycle`, `pop_model` and `finish_model`; between these calls other components
  use the objects the scheduler shares with them: the core clock (TVC's progress register), the
  memory side (PIM backend, SSRC coordinator) and every component that draws ids or addresses.

  * `Act`, `step`: the calls; every model id may be finished at any time;
  * `Event`, `observe`: models issued, rounds planned, tasks finished;
  * `Setup.Reach`: the states of the runs from a set-up, with the history of the run.
-/
import Ahasd.Lib.Transition
import Ahasd.Scheduler.SpecDecode

namespace Ahasd

open Std Transition

/-- The calls. -/
inductive Act where
  | cycle
  | popModel
  | finishModel (modelId : Nat)
  /-- the beacon of the core clock -/
  | npuProgress (npuCycle : Nat)
  /-- the memory side takes a request out of the interconnect -/
  | dramPush (cid : Nat) (req : MemoryAccess) (npuCycle : Nat)
  | aauBypass (cid : Nat) (req : MemoryAccess)
  | ssrcBypass (cid : Nat) (req : MemoryAccess)
  /-- another component draws an id, or an address block -/
  | drawId
  | drawAddress (size : Nat)
  deriving DecidableEq, Repr

/-- What an observer of the calls sees. -/
inductive Event where
  /-- a model was queued, under this record -/
  | issued (model : Model) (info : ModelMeta)
  /-- a round was planned: the entropy hint of its request at that moment, and the predictions the
      planning left to train -/
  | planned (requestId specRound : Nat) (hint : ℚ) (predictions : List (Nat × Bool))
  /-- a task was finished -/
  | finished (e : LangStepEvent)
  deriving DecidableEq

namespace Event

/-- A model of which `p` holds was issued. -/
def issuedWith (p : Model → ModelMeta → Bool) : Event → Bool
  | .issued built info => p built info
  | _ => false

/-- A task of which `p` holds was finished. -/
def finishedWith (p : LangStepEvent → Bool) : Event → Bool
  | .finished e => p e
  | _ => false

/-- A round of which `p` holds was planned. -/
def plannedWith (p : Nat → Nat → ℚ → List (Nat × Bool) → Bool) : Event → Bool
  | .planned id n hint preds => p id n hint preds
  | _ => false

theorem exists_issued {p : Model → ModelMeta → Bool} {l : List Event}
    (h : l.any (issuedWith p) = true) : ∃ built info, .issued built info ∈ l ∧ p built info = true := by
  obtain ⟨x, hx, hp⟩ := List.any_eq_true.mp h
  cases x with
  | issued built info => exact ⟨built, info, hx, hp⟩
  | planned id n hint preds => cases hp
  | finished e => cases hp

theorem exists_finished {p : LangStepEvent → Bool} {l : List Event}
    (h : l.any (finishedWith p) = true) : ∃ e, .finished e ∈ l ∧ p e = true := by
  obtain ⟨x, hx, hp⟩ := List.any_eq_true.mp h
  cases x with
  | finished e => exact ⟨e, hx, hp⟩
  | planned id n hint preds => cases hp
  | issued built info => cases hp

theorem exists_planned {p : Nat → Nat → ℚ → List (Nat × Bool) → Bool} {l : List Event}
    (h : l.any (plannedWith p) = true) :
    ∃ id n hint preds, .planned id n hint preds ∈ l ∧ p id n hint preds = true := by
  obtain ⟨x, hx, hp⟩ := List.any_eq_true.mp h
  cases x with
  | planned id n hint preds => exact ⟨id, n, hint, preds, hx, hp⟩
  | issued built info => cases hp
  | finished e => cases hp

end Event

namespace SpecDecodeScheduler

/-- The predictor the scheduler's calls reach: none without AHASD or with EDC disabled. -/
def predictor (s : SpecDecodeScheduler) : Option EDC :=
  s.ahasd.bind AHASDIntegration.predictor

/-- The predictions that wait for a verification. -/
def pendingPredictions (s : SpecDecodeScheduler) : List (Nat × Bool) :=
  (s.predictor.map EDC.pending).getD []

/-- One call. -/
def step (s : SpecDecodeScheduler) : Act → Option SpecDecodeScheduler
  | .cycle => s.cycle
  | .popModel => s.popModel.map Prod.snd
  | .finishModel modelId => s.finishModel modelId
  | .npuProgress npuCycle => some (s.updateAhasd (·.cycleNpuWithProgress npuCycle))
  | .dramPush cid req npuCycle =>
      some { s with pim := s.pim.map fun p => (p.onDramPush cid req npuCycle).2 }
  | .aauBypass cid req => some { s with pim := s.pim.map fun p => (p.tryAauBypass cid req).2 }
  | .ssrcBypass cid req =>
      match s.pim, s.ssrc with
      | some p, some c =>
          let r := p.trySsrcBypass c cid req
          some { s with pim := some r.2.1, ssrc := some r.2.2 }
      | _, _ => some s
  | .drawId => some { s with globals := s.globals.generateId.2 }
  | .drawAddress size => some { s with globals := (s.globals.allocateAddress size).2 }

/-- The models a call put into the queue, with their records. -/
def newModels (s s' : SpecDecodeScheduler) : List (Model × ModelMeta) :=
  (s'.modelQueue.drop s.modelQueue.length).filterMap fun m => (s'.modelMeta[m.id]?).map (m, ·)

/-- A newly issued draft of a round without a trace starts the round: the round was planned in the
    same call, of the request as it was before, and its predictions are the ones the call added. -/
def plannedBy (s s' : SpecDecodeScheduler) (info : ModelMeta) : List Event :=
  if info.taskType = .draft ∧ s.roundTraces[(info.requestId, info.verifyRound)]? = none then
    [.planned info.requestId info.verifyRound
      (((s.activeRequests[info.requestId]?).map computeEntropyHint).getD 0)
      (s'.pendingPredictions.drop s.pendingPredictions.length)]
  else []

/-- What a call shows. -/
def observe (s : SpecDecodeScheduler) (a : Act) (s' : SpecDecodeScheduler) : List Event :=
  match a with
  | .cycle => (newModels s s').flatMap fun m => plannedBy s s' m.2 ++ [.issued m.1 m.2]
  | .finishModel _ => s'.lastFinishedEvents.map .finished
  | _ => []

/-- The scheduler as a machine. -/
def machine : Machine SpecDecodeScheduler Act Event where
  step := step
  obs := observe

end SpecDecodeScheduler

/-- The runs of the scheduler from a set-up: the state reached and the history of the run. -/
def Setup.Reach (c : Setup) (s : SpecDecodeScheduler) (h : List Event) : Prop :=
  ∃ s₀, c.start = some s₀ ∧ Exec SpecDecodeScheduler.machine s₀ s h

/-- The run of a list of calls from a set-up. -/
def Setup.run (c : Setup) (as : List Act) : Option (SpecDecodeScheduler × List Event) :=
  c.start.bind (SpecDecodeScheduler.machine.run as)

/-- What `Setup.run` computes is a run. -/
theorem Setup.reach_of_run {c : Setup} {as : List Act} {s : SpecDecodeScheduler} {h : List Event}
    (hr : c.run as = some (s, h)) : c.Reach s h := by
  obtain ⟨s₀, hs₀, hrun⟩ := Option.bind_eq_some_iff.mp hr
  exact ⟨s₀, hs₀, exec_of_run hrun⟩

/-- A run and one call more. -/
theorem Setup.run_snoc (c : Setup) (as : List Act) (a : Act) :
    c.run (as ++ [a]) = (c.run as).bind fun r => (SpecDecodeScheduler.machine.step r.1 a).map
      fun t => (t, r.2 ++ SpecDecodeScheduler.machine.obs r.1 a t) := by
  unfold Setup.run
  cases c.start with
  | none => rfl
  | some s₀ => exact SpecDecodeScheduler.machine.run_snoc a as s₀

/-- A list of calls that runs, runs up to every point before its end. -/
theorem Setup.run_prefix {c : Setup} {bs as : List Act} (hb : bs <+: as)
    (h : (c.run as).isSome = true) : ∃ s h, c.run bs = some (s, h) := by
  unfold Setup.run at h ⊢
  cases hs : c.start with
  | none => rw [hs] at h; cases h
  | some s₀ =>
      rw [hs] at h
      obtain ⟨⟨s, h'⟩, hr⟩ := Option.isSome_iff_exists.mp
        (SpecDecodeScheduler.machine.run_prefix hb h)
      exact ⟨s, h', hr⟩

/-- A closed run reaches a state with the facts it computes. -/
theorem Setup.exists_reach {c : Setup} {l : List Act}
    {p : SpecDecodeScheduler × List Event → Bool} (hp : (c.run l).any p = true) :
    ∃ s h, c.Reach s h ∧ p (s, h) = true := by
  obtain ⟨⟨s, h⟩, hrun, hfacts⟩ := (Option.any_eq_true p _).mp hp
  exact ⟨s, h, Setup.reach_of_run hrun, hfacts⟩

/-- A closed run and one call more. -/
theorem Setup.exists_step {c : Setup} {l : List Act} {a : Act}
    {p : SpecDecodeScheduler → List Event → SpecDecodeScheduler → Bool}
    (hp : (c.run l).any (fun r =>
      (SpecDecodeScheduler.machine.step r.1 a).any (p r.1 r.2)) = true) :
    ∃ s h s', c.Reach s h ∧ SpecDecodeScheduler.machine.step s a = some s' ∧
      p s h s' = true := by
  obtain ⟨s, h, hr, hstep⟩ := Setup.exists_reach hp
  obtain ⟨s', hs', hfacts⟩ := (Option.any_eq_true _ _).mp hstep
  exact ⟨s, h, s', hr, hs', hfacts⟩

/-- A closed run and a segment after it. -/
theorem Setup.exists_segment {c : Setup} {l k : List Act}
    {p : SpecDecodeScheduler → SpecDecodeScheduler → List Event → Bool}
    (hp : (c.run l).any (fun r =>
      (SpecDecodeScheduler.machine.run k r.1).any fun r' => p r.1 r'.1 r'.2) = true) :
    ∃ s h s' h', c.Reach s h ∧ Exec SpecDecodeScheduler.machine s s' h' ∧ p s s' h' = true := by
  obtain ⟨s, h, hr, hrun⟩ := Setup.exists_reach hp
  obtain ⟨⟨s', h'⟩, hrun', hfacts⟩ := (Option.any_eq_true _ _).mp hrun
  exact ⟨s, h, s', h', hr, exec_of_run hrun', hfacts⟩

/-! ## A set-up for closed runs -/

/-- A small set-up: one layer, drafts of up to three tokens, AHASD and the PIM overlay enabled, the
    rows of the request trace, and what each round accepts. -/
def sampleSetup (rows : List RequestRow) (acceptRows : List (TraceKey × TraceRow)) : Setup where
  lib := ⟨fun _ => 1, fun _ _ => 0⟩
  config :=
    { coreFreq := 1000
      dramFreq := 800
      dramChannels := 2
      dramSize := 0
      precision := 2
      enableAhasd := true
      maxDraftLength := 3
      pimEnable := true
      acceptMode := "trace_replay" }
  draftModel :=
    { numHiddenLayers := 1
      numAttentionHeads := 1
      numKvHeads := 1
      hiddenSize := 4
      maxSeqLength := 32 }
  targetModel := some
    { numHiddenLayers := 1
      numAttentionHeads := 1
      numKvHeads := 1
      hiddenSize := 4
      maxSeqLength := 32 }
  rows := rows
  acceptRows := acceptRows

/-- Calls that issue a model and finish it, for the models of the list. -/
def finishing (modelIds : List Nat) : List Act :=
  modelIds.flatMap fun id => [.cycle, .finishModel id]

end Ahasd
