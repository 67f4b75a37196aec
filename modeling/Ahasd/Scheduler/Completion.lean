/-
  File:      Ahasd/Scheduler/Completion.lean
  Subject:   WHAT A FINISHED TASK CHANGES (`finish_model`, branch by branch).

  * `afterTask`: the request a finished task leaves behind, as one function of the request;
  * `finishVerify_eq`, `finishPreVerify_eq`: the two verifications as one update of the state;
  * `completed_*`: what a completion does to each part of the state.
-/
import Ahasd.Scheduler.Issue

namespace Ahasd

open Std Transition OrderedMap

namespace SpecDecodeScheduler

/-! ## 1. The tasks -/

/-- The tokens a verification accepts. -/
def acceptedBy (s : SpecDecodeScheduler) (req : LangRequest) (info : ModelMeta) : Nat :=
  let k := max 1 info.draftLengthAtIssue
  min k (s.acceptModel.sample req.requestId req.specRound k (computeEntropyHint req))

/-- The tally of one sample of `k` tokens. -/
def tallied (s : SpecDecodeScheduler) (req : LangRequest) (k : Nat) : SpecDecodeScheduler :=
  { s with
    acceptSamples := s.acceptSamples + 1
    acceptSum := s.acceptSum +
      s.acceptModel.sample req.requestId req.specRound k (computeEntropyHint req)
    acceptKSum := s.acceptKSum + k
    hintUses := s.hintUses ++
      [⟨.sample, req.requestId, req.specRound, computeEntropyHint req⟩] }

/-- The request a finished task leaves behind; none when its verification completed it. -/
def afterTask (s : SpecDecodeScheduler) (req : LangRequest) (info : ModelMeta) :
    Option LangRequest :=
  match info.taskType with
  | .prompt => some (s.promptedRequest req)
  | .draft => some (s.draftedRequest req)
  | .verify =>
      let after := s.applyVerifyResult req (s.acceptedBy req info)
      if after.specPhase = .done then none else some after
  | .preVerify => some req
  | .autoreg => some req

@[simp] theorem applyVerifyResult_requestId (s : SpecDecodeScheduler) (req : LangRequest)
    (accepted : Nat) : (s.applyVerifyResult req accepted).requestId = req.requestId := by
  unfold applyVerifyResult
  dsimp only
  split <;> rfl

section Completions

variable (s : SpecDecodeScheduler) (req : LangRequest) (info : ModelMeta) (event : LangStepEvent)

theorem sampleAcceptedLength_eq {k : Nat} (hk : 1 ≤ k) : s.sampleAcceptedLength req k =
    (s.acceptModel.sample req.requestId req.specRound k (computeEntropyHint req),
      s.tallied req k) := by
  unfold sampleAcceptedLength
  rw [if_neg (by omega)]
  rfl

/-- The bookkeeping of a verification, but for the stalls and the deferrals. -/
theorem settleVerify_eq (after : LangRequest) (k accepted : Nat) : ∃ stalls ssrc deferred,
    s.settleVerify after info k accepted =
      { s with
        roundTraces := (s.updateRoundTrace after.requestId info.verifyRound fun t =>
          { t with acceptedLength := accepted, verifyFinishCycle := s.cycleCount }).roundTraces
        vskm := (s.vskm.completeVerify after.requestId k accepted).2
        kvStateStallUntil := stalls
        ahasd := s.ahasd.map (·.recordVerifyResult (accepted == k) k accepted
          (s.elapsedCycles info.issueCycle) after.currentLength true)
        ssrc := ssrc
        ssrcDeferredRound := deferred } := by
  unfold settleVerify
  dsimp only
  generalize hstall : stallRequest _ after _ = s₂
  obtain ⟨stalls, h⟩ := stallRequest_frame _ after _
  rw [hstall] at h
  subst h
  obtain ⟨ssrc, deferred, h⟩ := retireRound_frame _ after.requestId info.verifyRound accepted k
  rw [h]
  exact ⟨stalls, ssrc, deferred, rfl⟩

/-- The verification of a round around its bookkeeping. -/
theorem finishVerify_settle : s.finishVerify req info event =
    let k := max 1 info.draftLengthAtIssue
    let accepted := s.acceptedBy req info
    let after := s.applyVerifyResult req accepted
    let t := (s.tallied req k).settleVerify after info k accepted
    ({ event with
        acceptedLength := accepted
        generatedTokens := accepted
        currentLength := after.currentLength },
      if after.specPhase = .done then t.forgetRequest req.requestId else t.putRequest after) := by
  unfold finishVerify
  dsimp only
  rw [sampleAcceptedLength_eq s req (Nat.le_max_left 1 _)]
  rfl

/-- The verification of a round, as one update of the state and the fate of the request. -/
theorem finishVerify_eq : ∃ stalls ssrc deferred,
    s.finishVerify req info event =
      let k := max 1 info.draftLengthAtIssue
      let accepted := s.acceptedBy req info
      let after := s.applyVerifyResult req accepted
      let t := { s.tallied req k with
        roundTraces := (s.updateRoundTrace req.requestId info.verifyRound fun t =>
          { t with acceptedLength := accepted, verifyFinishCycle := s.cycleCount }).roundTraces
        vskm := (s.vskm.completeVerify req.requestId k accepted).2
        kvStateStallUntil := stalls
        ahasd := s.ahasd.map fun a : AHASDIntegration =>
          a.recordVerifyResult (accepted == k) k accepted (s.elapsedCycles info.issueCycle)
            after.currentLength true
        ssrc := ssrc
        ssrcDeferredRound := deferred }
      ({ event with
          acceptedLength := accepted
          generatedTokens := accepted
          currentLength := after.currentLength },
        if after.specPhase = .done then t.forgetRequest req.requestId else t.putRequest after) := by
  obtain ⟨stalls, ssrc, deferred, h⟩ := settleVerify_eq (s.tallied req (max 1 info.draftLengthAtIssue))
    info (s.applyVerifyResult req (s.acceptedBy req info)) (max 1 info.draftLengthAtIssue)
    (s.acceptedBy req info)
  rw [applyVerifyResult_requestId] at h
  refine ⟨stalls, ssrc, deferred, ?_⟩
  rw [finishVerify_settle]
  dsimp only
  rw [h]
  rfl

end Completions

/-- The pre-verification of a round, as one update of the state. -/
theorem finishPreVerify_eq (s : SpecDecodeScheduler) (req : LangRequest) (info : ModelMeta)
    (event : LangStepEvent) :
    s.finishPreVerify req info event =
      let k := max 1 info.draftLengthAtIssue
      let accepted := s.acceptedBy req info
      ({ event with acceptedLength := accepted, generatedTokens := accepted },
        { s.tallied req k with
          vskm := s.vskm.preVerify req.requestId
          ahasd := s.ahasd.map fun a : AHASDIntegration =>
            (a.recordPreVerify (s.elapsedCycles info.issueCycle) k).recordVerifyResult
              (accepted == k) k accepted (s.elapsedCycles info.issueCycle) req.currentLength
              false }) := by
  unfold finishPreVerify
  dsimp only
  rw [sampleAcceptedLength_eq s req (Nat.le_max_left 1 _)]
  rfl

/-- The request's entry after its task, before the release. -/
theorem finishTask_activeRequests (s : SpecDecodeScheduler) (req : LangRequest) (info : ModelMeta)
    (hact : s.activeRequests[req.requestId]? = some req) (id : Nat) :
    (s.finishTask req info).2.activeRequests[id]? =
      if id = req.requestId then s.afterTask req info else s.activeRequests[id]? := by
  have hsame : s.activeRequests[id]? =
      if id = req.requestId then some req else s.activeRequests[id]? := by
    split
    · next heq => rw [heq, hact]
    · rfl
  unfold finishTask afterTask
  dsimp only
  cases info.taskType with
  | prompt => exact lookup_insert _ _ _ _
  | draft => exact lookup_insert _ _ _ _
  | autoreg => exact hsame
  | preVerify =>
      dsimp only
      rw [finishPreVerify_eq]
      exact hsame
  | verify =>
      dsimp only
      obtain ⟨stalls, ssrc, deferred, h⟩ := s.finishVerify_eq req info (completionEvent req info)
      rw [h]
      dsimp only
      split
      · exact lookup_erase _ _ _
      · refine (lookup_insert _ _ _ _).trans ?_
        rw [applyVerifyResult_requestId]
        rfl

/-- The per-request maps are erased with the request and stay otherwise. -/
theorem finishTask_forgets (s : SpecDecodeScheduler) (req : LangRequest) (info : ModelMeta) :
    (s.finishTask req info).2.preVerifiedInRound =
        (if s.afterTask req info = none then s.preVerifiedInRound.erase req.requestId
          else s.preVerifiedInRound) ∧
      (s.finishTask req info).2.lastRankMode =
        (if s.afterTask req info = none then s.lastRankMode.erase req.requestId
          else s.lastRankMode) := by
  unfold finishTask afterTask
  dsimp only
  cases info.taskType with
  | prompt => exact ⟨rfl, rfl⟩
  | draft => exact ⟨rfl, rfl⟩
  | autoreg => exact ⟨rfl, rfl⟩
  | preVerify =>
      dsimp only
      rw [finishPreVerify_eq]
      exact ⟨rfl, rfl⟩
  | verify =>
      dsimp only
      obtain ⟨stalls, ssrc, deferred, h⟩ := s.finishVerify_eq req info (completionEvent req info)
      rw [h]
      dsimp only
      split <;> exact ⟨rfl, rfl⟩

/-- What a finished task does to VSKM. -/
def taskVskm (s : SpecDecodeScheduler) (req : LangRequest) (info : ModelMeta) : VSKM :=
  match info.taskType with
  | .prompt => s.vskm.resetRequest req.requestId (req.currentLength + req.promptLength)
  | .draft => s.vskm.draftToken req.requestId
  | .verify =>
      (s.vskm.completeVerify req.requestId (max 1 info.draftLengthAtIssue) (s.acceptedBy req info)).2
  | .preVerify => s.vskm.preVerify req.requestId
  | .autoreg => s.vskm

/-- What a finished task does to the coordinator. -/
def taskAhasd (s : SpecDecodeScheduler) (req : LangRequest) (info : ModelMeta)
    (a : AHASDIntegration) : AHASDIntegration :=
  let k := max 1 info.draftLengthAtIssue
  let accepted := s.acceptedBy req info
  let cycles := s.elapsedCycles info.issueCycle
  match info.taskType with
  | .prompt => a
  | .draft =>
      let a := a.recordDraftTokensGenerated 1
      if decide (req.draftedInRound + 1 ≥ req.plannedDraftLength) && a.config.enableTvc then
        a.recordDraftBatch cycles 1
      else a
  | .verify =>
      a.recordVerifyResult (accepted == k) k accepted cycles
        (s.applyVerifyResult req accepted).currentLength true
  | .preVerify =>
      (a.recordPreVerify cycles k).recordVerifyResult (accepted == k) k accepted cycles
        req.currentLength false
  | .autoreg => a

/-- What a finished task adds to the record of hints: the two verifications sample. -/
def taskHints (req : LangRequest) (info : ModelMeta) : List HintUse :=
  match info.taskType with
  | .verify | .preVerify => [⟨.sample, req.requestId, req.specRound, computeEntropyHint req⟩]
  | _ => []

/-- **The components after a finished task.** -/
theorem finishTask_components (s : SpecDecodeScheduler) (req : LangRequest) (info : ModelMeta) :
    (s.finishTask req info).2.vskm = s.taskVskm req info ∧
      (s.finishTask req info).2.ahasd = s.ahasd.map (s.taskAhasd req info) ∧
      (s.finishTask req info).2.hintUses = s.hintUses ++ taskHints req info := by
  unfold finishTask taskVskm taskAhasd taskHints
  dsimp only
  cases info.taskType with
  | prompt => exact ⟨rfl, Option.map_id'.symm, (List.append_nil _).symm⟩
  | draft => exact ⟨rfl, Option.map_map _ _ _, (List.append_nil _).symm⟩
  | autoreg => exact ⟨rfl, Option.map_id'.symm, (List.append_nil _).symm⟩
  | preVerify =>
      dsimp only
      rw [finishPreVerify_eq]
      exact ⟨rfl, rfl, rfl⟩
  | verify =>
      dsimp only
      obtain ⟨stalls, ssrc, deferred, h⟩ := s.finishVerify_eq req info (completionEvent req info)
      rw [h]
      dsimp only
      split <;> exact ⟨rfl, rfl, rfl⟩

/-- A finished task keeps the plans. -/
theorem finishTask_planOf {s : SpecDecodeScheduler} {req : LangRequest} {info : ModelMeta}
    (hplanned : info.taskType = .draft ∨ info.taskType = .verify →
      (s.planOf req.requestId info.verifyRound).isSome) (id round : Nat) :
    (s.finishTask req info).2.planOf id round = s.planOf id round := by
  unfold finishTask
  dsimp only
  cases h : info.taskType with
  | prompt => rfl
  | draft =>
      let f : RoundTrace → RoundTrace := fun t =>
        { t with draftTasksFinished := t.draftTasksFinished + 1, draftFinishCycle := s.cycleCount }
      exact updateRoundTrace_planOf (f := f) (hplanned (.inl h)) (fun _ => rfl) id round
  | autoreg => rfl
  | preVerify =>
      dsimp only
      rw [finishPreVerify_eq]
      rfl
  | verify =>
      dsimp only
      obtain ⟨stalls, ssrc, deferred, heq⟩ := s.finishVerify_eq req info (completionEvent req info)
      rw [heq]
      dsimp only
      let f : RoundTrace → RoundTrace := fun t =>
        { t with acceptedLength := s.acceptedBy req info, verifyFinishCycle := s.cycleCount }
      split <;> exact updateRoundTrace_planOf (f := f) (hplanned (.inr h)) (fun _ => rfl) id round

/-! ## 2. The parts of the state -/

section Completed

variable (s : SpecDecodeScheduler) (modelId : Nat) (req : LangRequest) (info : ModelMeta)

/-- **The frame of a completion.** -/
theorem completed_frame : ∃ active vskm ahasd ssrc deferred preVerified modes stalls traces samples
      sum kSum hints,
    (s.completed modelId req info).2 =
      { s with
        modelMeta := s.modelMeta.erase modelId
        lastFinishedEvents := [(s.completed modelId req info).1]
        requestsInModel := s.requestsInModel.erase modelId
        activeRequests := active
        vskm := vskm
        ahasd := ahasd
        ssrc := ssrc
        ssrcDeferredRound := deferred
        preVerifiedInRound := preVerified
        lastRankMode := modes
        kvStateStallUntil := stalls
        roundTraces := traces
        acceptSamples := samples
        acceptSum := sum
        acceptKSum := kSum
        hintUses := hints } := by
  unfold completed finishTask
  dsimp only
  cases info.taskType with
  | prompt => exact ⟨_, _, _, _, _, _, _, _, _, _, _, _, _, rfl⟩
  | draft => exact ⟨_, _, _, _, _, _, _, _, _, _, _, _, _, rfl⟩
  | autoreg => exact ⟨_, _, _, _, _, _, _, _, _, _, _, _, _, rfl⟩
  | preVerify =>
      dsimp only
      rw [finishPreVerify_eq]
      exact ⟨_, _, _, _, _, _, _, _, _, _, _, _, _, rfl⟩
  | verify =>
      dsimp only
      obtain ⟨stalls, ssrc, deferred, h⟩ := finishVerify_eq
        { s with modelMeta := s.modelMeta.erase modelId, lastFinishedEvents := [] } req info
        (completionEvent req info)
      rw [h]
      dsimp only
      split <;> exact ⟨_, _, _, _, _, _, _, _, _, _, _, _, _, rfl⟩

@[simp] theorem completed_modelMeta :
    (s.completed modelId req info).2.modelMeta = s.modelMeta.erase modelId := by
  obtain ⟨_, _, _, _, _, _, _, _, _, _, _, _, _, h⟩ := s.completed_frame modelId req info
  rw [h]

@[simp] theorem completed_requestsInModel :
    (s.completed modelId req info).2.requestsInModel = s.requestsInModel.erase modelId := by
  obtain ⟨_, _, _, _, _, _, _, _, _, _, _, _, _, h⟩ := s.completed_frame modelId req info
  rw [h]

@[simp] theorem completed_requestQueue :
    (s.completed modelId req info).2.requestQueue = s.requestQueue := by
  obtain ⟨_, _, _, _, _, _, _, _, _, _, _, _, _, h⟩ := s.completed_frame modelId req info
  rw [h]

@[simp] theorem completed_globals : (s.completed modelId req info).2.globals = s.globals := by
  obtain ⟨_, _, _, _, _, _, _, _, _, _, _, _, _, h⟩ := s.completed_frame modelId req info
  rw [h]

@[simp] theorem completed_pim : (s.completed modelId req info).2.pim = s.pim := by
  obtain ⟨_, _, _, _, _, _, _, _, _, _, _, _, _, h⟩ := s.completed_frame modelId req info
  rw [h]

/-- **The requests after a completion**: only the finished task's request can change. -/
theorem completed_activeRequests (hid : info.requestId = req.requestId)
    (hact : s.activeRequests[req.requestId]? = some req) (id : Nat) :
    (s.completed modelId req info).2.activeRequests[id]? =
      if id = req.requestId then
        (s.afterTask req info).map fun r => { r with running := false }
      else s.activeRequests[id]? := by
  let s₁ := { s with modelMeta := s.modelMeta.erase modelId, lastFinishedEvents := [] }
  have h := s₁.finishTask_activeRequests req info hact id
  unfold completed release
  dsimp only
  rw [hid, lookup_modify, h]
  split <;> rfl

@[simp] theorem completed_preVerifiedInRound :
    (s.completed modelId req info).2.preVerifiedInRound =
      if s.afterTask req info = none then s.preVerifiedInRound.erase req.requestId
      else s.preVerifiedInRound :=
  (finishTask_forgets { s with modelMeta := s.modelMeta.erase modelId, lastFinishedEvents := [] }
    req info).1

@[simp] theorem completed_lastRankMode :
    (s.completed modelId req info).2.lastRankMode =
      if s.afterTask req info = none then s.lastRankMode.erase req.requestId
      else s.lastRankMode :=
  (finishTask_forgets { s with modelMeta := s.modelMeta.erase modelId, lastFinishedEvents := [] }
    req info).2

@[simp] theorem completed_vskm : (s.completed modelId req info).2.vskm = s.taskVskm req info :=
  (finishTask_components { s with modelMeta := s.modelMeta.erase modelId, lastFinishedEvents := [] }
    req info).1

@[simp] theorem completed_ahasd :
    (s.completed modelId req info).2.ahasd = s.ahasd.map (s.taskAhasd req info) :=
  (finishTask_components { s with modelMeta := s.modelMeta.erase modelId, lastFinishedEvents := [] }
    req info).2.1

@[simp] theorem completed_hintUses :
    (s.completed modelId req info).2.hintUses = s.hintUses ++ taskHints req info :=
  (finishTask_components { s with modelMeta := s.modelMeta.erase modelId, lastFinishedEvents := [] }
    req info).2.2

theorem completed_planOf (hplanned : info.taskType = .draft ∨ info.taskType = .verify →
    (s.planOf req.requestId info.verifyRound).isSome) (id round : Nat) :
    (s.completed modelId req info).2.planOf id round = s.planOf id round :=
  finishTask_planOf (s := { s with
    modelMeta := s.modelMeta.erase modelId, lastFinishedEvents := [] }) hplanned id round

/-- **The event of a completion**: the record of the issue and the request before it; the two
    verifications add what was accepted. -/
theorem completed_event : (s.completed modelId req info).1.requestId = req.requestId ∧
    (s.completed modelId req info).1.taskType = info.taskType ∧
    (s.completed modelId req info).1.specRound = info.verifyRound ∧
    (s.completed modelId req info).1.draftLength = info.draftLengthAtIssue ∧
    (s.completed modelId req info).1.previousLength = req.currentLength ∧
    (info.taskType = .verify ∨ info.taskType = .preVerify →
      (s.completed modelId req info).1.acceptedLength = s.acceptedBy req info) ∧
    (info.taskType = .verify → (s.completed modelId req info).1.currentLength =
      (s.applyVerifyResult req (s.acceptedBy req info)).currentLength) := by
  unfold completed finishTask
  dsimp only
  cases h : info.taskType with
  | prompt => exact ⟨rfl, h, rfl, rfl, rfl, by simp, by simp⟩
  | draft => exact ⟨rfl, h, rfl, rfl, rfl, by simp, by simp⟩
  | autoreg => exact ⟨rfl, h, rfl, rfl, rfl, by simp, by simp⟩
  | preVerify =>
      dsimp only
      rw [finishPreVerify_eq]
      exact ⟨rfl, h, rfl, rfl, rfl, fun _ => rfl, by simp⟩
  | verify =>
      dsimp only
      rw [finishVerify_settle]
      exact ⟨rfl, h, rfl, rfl, rfl, fun _ => rfl, fun _ => rfl⟩

end Completed

end SpecDecodeScheduler

end Ahasd
