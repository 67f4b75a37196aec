/-
  File:      Ahasd/Scheduler/SpecDecode.lean
  Subject:   THE SPECULATIVE DECODING SCHEDULER (SpecDecodeScheduler.cc), on top of the base
             scheduler, and its construction by the simulator.

  Per request: prefill by the target model, then rounds of draft tasks, at most one pre-verification
  and a verification. The `float` arithmetic of the entropy hint is exact.

  * `tryIssueOneTask`: one request; `issueLoop`, `cycle`: all of them, at most one model a call;
  * `finishPrompt`, `finishDraft`, `finishVerify`, `finishPreVerify`, `finishModel`: completions;
  * `start`: the scheduler as the simulator builds it.

  `hintUses` is not a field of the source: it keeps, for each call that passes the entropy hint on,
  who received it and its value.
-/
import Ahasd.Integration
import Ahasd.VSKM
import Ahasd.PIMBackend
import Ahasd.Acceptance
import Ahasd.Scheduler.Lang

namespace Ahasd

open Std

/-! ## 1. The data -/

/-- `SpecDecodeScheduler::ModelMeta`. -/
structure ModelMeta where
  requestId : Nat
  taskType : LangTaskType
  role : ModelRole
  draftLengthAtIssue : Nat
  verifyRound : Nat
  issueCycle : Nat
  deriving DecidableEq, Repr

/-- `SpecDecodeScheduler::RoundTrace`. -/
structure RoundTrace where
  requestId : Nat
  specRound : Nat
  plannedDraftLength : Nat := 0
  acceptedLength : Nat := 0
  draftIssueCycle : Nat := 0
  draftFinishCycle : Nat := 0
  verifyIssueCycle : Nat := 0
  verifyFinishCycle : Nat := 0
  draftTasksFinished : Nat := 0
  preverifyCount : Nat := 0
  preverifyTokens : Nat := 0
  entropy : ℚ := 0
  deriving DecidableEq

/-- The receivers of the entropy hint. -/
inductive HintConsumer where
  | edc
  | trace
  | ssrc
  | sample
  deriving DecidableEq, Repr

/-- One hand-over of the entropy hint of a round. -/
structure HintUse where
  consumer : HintConsumer
  requestId : Nat
  specRound : Nat
  hint : ℚ
  deriving DecidableEq

/-- The order of `std::pair<uint32_t, uint32_t>`, the key of the round traces. -/
def roundKeyCmp : Nat × Nat → Nat × Nat → Ordering :=
  compareLex (compareOn Prod.fst) (compareOn Prod.snd)

instance : TransCmp roundKeyCmp :=
  inferInstanceAs (TransCmp (compareLex (compareOn Prod.fst) (compareOn Prod.snd)))

instance : LawfulEqCmp roundKeyCmp where
  compare_self := ReflCmp.compare_self
  eq_of_compare := by
    rintro ⟨a, b⟩ ⟨c, d⟩ h
    obtain ⟨h1, h2⟩ := compareLex_eq_eq.mp h
    rw [show a = c from LawfulEqCmp.eq_of_compare h1, show b = d from LawfulEqCmp.eq_of_compare h2]

/-- `SpecDecodeScheduler`. The target model is absent until it is attached; AHASD, PIM and SSRC are
    the null-safe pointers the simulator injects. -/
structure SpecDecodeScheduler extends LangScheduler where
  targetModel : Option LanguageModel := none
  modelMeta : TreeMap Nat ModelMeta := ∅
  maxDraftLength : Nat
  defaultDraftLength : Nat
  ahasd : Option AHASDIntegration := none
  pim : Option PIMBackend := none
  ssrc : Option SSRCCoordinator := none
  ssrcDeferredRound : TreeMap Nat Nat := ∅
  preVerifiedInRound : TreeMap Nat Nat := ∅
  lastRankMode : TreeMap Nat Nat := ∅
  acceptModel : SyntheticAcceptanceModel
  vskm : VSKM
  kvStateStallUntil : TreeMap Nat Nat := ∅
  roundTraces : TreeMap (Nat × Nat) RoundTrace roundKeyCmp := ∅
  acceptSamples : Nat := 0
  acceptSum : Nat := 0
  acceptKSum : Nat := 0
  hintUses : List HintUse := []

/-- `compute_entropy_hint`. -/
def computeEntropyHint (req : LangRequest) : ℚ :=
  let progress := req.currentLength - req.promptLength
  let span :=
    if req.targetLength > req.promptLength then req.targetLength - req.promptLength else 1
  let ratio : ℚ := min 1 ((progress : ℚ) / (max 1 span : Nat))
  let base := 5 / 2 + 5 / 2 * ratio
  let jitter : ℚ := 1 / 2 * (req.specRound % 4 : Nat)
  min (19 / 2) (max (1 / 2) (base + jitter))

namespace SpecDecodeScheduler

/-! ## 2. Hooks and bookkeeping -/

/-- `kv_bytes_per_token`. -/
def kvBytesPerToken (s : LangScheduler) : Nat :=
  u64 (2 * s.numLayers * s.cacheDim * max 1 s.config.precision)

/-- Records a hand-over of the hint. -/
def noteHint (s : SpecDecodeScheduler) (consumer : HintConsumer) (requestId specRound : Nat)
    (hint : ℚ) : SpecDecodeScheduler :=
  { s with hintUses := s.hintUses ++ [⟨consumer, requestId, specRound, hint⟩] }

/-- The cap of `pick_draft_length`. -/
def draftCap (s : SpecDecodeScheduler) (req : LangRequest) : Nat :=
  min s.maxDraftLength (max 1 (req.targetLength - req.currentLength))

/-- `pick_draft_length`, for the round after `req.specRound`. -/
def pickDraftLength (s : SpecDecodeScheduler) (req : LangRequest) : Nat × SpecDecodeScheduler :=
  let cap := s.draftCap req
  let byDefault := (max 1 (min s.defaultDraftLength cap), s)
  match s.ahasd with
  | none => byDefault
  | some a =>
      if a.config.enableEdc then
        let hint := computeEntropyHint req
        let (k, a) := a.decideDraftLength cap hint
        (k, { s with ahasd := some a }.noteHint .edc req.requestId (req.specRound + 1) hint)
      else byDefault

/-- `sample_accepted_length`. -/
def sampleAcceptedLength (s : SpecDecodeScheduler) (req : LangRequest) (draftLength : Nat) :
    Nat × SpecDecodeScheduler :=
  if draftLength = 0 then (0, s)
  else
    let hint := computeEntropyHint req
    let accepted := s.acceptModel.sample req.requestId req.specRound draftLength hint
    (accepted,
      { s with
        acceptSamples := s.acceptSamples + 1
        acceptSum := s.acceptSum + accepted
        acceptKSum := s.acceptKSum + draftLength }.noteHint .sample req.requestId req.specRound hint)

/-- A call through the `_ahasd` pointer, when it is not null. -/
def updateAhasd (s : SpecDecodeScheduler) (f : AHASDIntegration → AHASDIntegration) :
    SpecDecodeScheduler :=
  { s with ahasd := s.ahasd.map f }

/-- `round_trace`: the entry of a round, created when absent. -/
def roundTrace (s : SpecDecodeScheduler) (requestId specRound : Nat) : RoundTrace :=
  (s.roundTraces[(requestId, specRound)]?).getD { requestId := requestId, specRound := specRound }

/-- Writes through the reference `round_trace` returns. -/
def updateRoundTrace (s : SpecDecodeScheduler) (requestId specRound : Nat)
    (f : RoundTrace → RoundTrace) : SpecDecodeScheduler :=
  { s with
    roundTraces := s.roundTraces.insert (requestId, specRound)
      (f (s.roundTrace requestId specRound)) }

/-- Writes a request back to its entry. -/
def putRequest (s : SpecDecodeScheduler) (req : LangRequest) : SpecDecodeScheduler :=
  { s with activeRequests := s.activeRequests.insert req.requestId req }

/-- The lambda `request_rank_switch` of `try_issue_one_task`: the mode a request last asked for is
    remembered per request, 0 when it never asked. -/
def requestRankSwitch (s : SpecDecodeScheduler) (requestId desiredMode : Nat) :
    SpecDecodeScheduler :=
  match s.pim, s.ahasd with
  | some pim, some _ =>
      if !pim.active then s
      else if (s.lastRankMode[requestId]?).getD 0 = desiredMode then s
      else
        { s with
          pim := some (pim.switchAllPimTo desiredMode s.cycleCount).2
          lastRankMode := s.lastRankMode.insert requestId desiredMode }
  | _, _ => s

/-! ## 3. Issuing -/

/-- The input `build_model` makes of a request. -/
def modelInput (req : LangRequest) (taskType : LangTaskType) (seqLength : Nat) : LangInput where
  requestId := req.requestId
  seqLength := seqLength
  contextLength := req.currentLength
  specTaskType := taskType.code
  keyCache := req.keyCache
  valueCache := req.valueCache

/-- What every branch of `try_issue_one_task` does with the model it built: register it, mark the
    request as running, queue the model. The entry of a request is at its own id. -/
def launched (s : SpecDecodeScheduler) (req : LangRequest) (issued : ModelMeta) (built : Model)
    (g : Globals) : SpecDecodeScheduler :=
  { s with
    globals := g
    modelMeta := s.modelMeta.insert built.id issued
    activeRequests := s.activeRequests.insert req.requestId
      { req with lastTaskType := issued.taskType, running := true }
    requestsInModel := s.requestsInModel.insert built.id
      ((s.requestsInModel[built.id]?).getD [] ++ [req.requestId])
    modelQueue := s.modelQueue ++ [built] }

/-- `build_model` for a batch of one request, and the launch of the result. -/
def launch (s : SpecDecodeScheduler) (model : LanguageModel) (req : LangRequest)
    (seqLength : Nat) (issued : ModelMeta) : Option SpecDecodeScheduler :=
  (model.generateModel [modelInput req issued.taskType seqLength] s.globals).map fun r =>
    s.launched req issued r.1 r.2

/-- The model and role of the tasks of the target side. -/
def targetOrDraft (s : SpecDecodeScheduler) : LanguageModel × ModelRole :=
  match s.targetModel with
  | some target => (target, .target)
  | none => (s.languageModel, .single)

/-- `case PROMPT_PENDING`. -/
def issuePrompt (s : SpecDecodeScheduler) (req : LangRequest) : Option SpecDecodeScheduler :=
  let s := s.requestRankSwitch req.requestId 1
  s.launch s.targetOrDraft.1 req req.promptLength
    ⟨req.requestId, .prompt, s.targetOrDraft.2, 0, 0, s.cycleCount⟩

/-- The SSRC consultation of `case DRAFT_ROUND_START`. -/
def deferRound (s : SpecDecodeScheduler) (req : LangRequest) : SpecDecodeScheduler :=
  match s.ssrc with
  | none => s
  | some c =>
      if c.isEnabled then
        let hint := computeEntropyHint req
        let (defer, c) :=
          c.shouldDeferRound req.requestId req.specRound req.plannedDraftLength hint
        { s with
          ssrc := some c
          ssrcDeferredRound :=
            if defer then s.ssrcDeferredRound.insert req.requestId req.specRound
            else s.ssrcDeferredRound }.noteHint .ssrc req.requestId req.specRound hint
      else s

/-- `case DRAFT_ROUND_START`, up to the fall-through. -/
def planRound (s : SpecDecodeScheduler) (req : LangRequest) : LangRequest × SpecDecodeScheduler :=
  let (k, s) := s.pickDraftLength req
  let req := { req with
    plannedDraftLength := k
    draftedInRound := 0
    specRound := req.specRound + 1 }
  let hint := computeEntropyHint req
  let s := s.updateRoundTrace req.requestId req.specRound fun t =>
    { t with plannedDraftLength := k, entropy := hint }
  let s := s.noteHint .trace req.requestId req.specRound hint
  let s := { s with
    vskm := s.vskm.beginRound req.requestId req.specRound req.currentLength k }
  let s := s.deferRound req
  let req := { req with specPhase := .drafting }
  (req, s.putRequest req)

/-- `case DRAFTING`. -/
def issueDraft (s : SpecDecodeScheduler) (req : LangRequest) : Option SpecDecodeScheduler :=
  let s := s.requestRankSwitch req.requestId 0
  let s := s.updateRoundTrace req.requestId req.specRound fun t =>
    { t with draftIssueCycle := if t.draftIssueCycle = 0 then s.cycleCount else t.draftIssueCycle }
  s.launch s.languageModel req 1
    ⟨req.requestId, .draft, .draft, req.plannedDraftLength, req.specRound, s.cycleCount⟩

/-- The TVC consultation of `case AWAIT_VERIFY`: at most one pre-verification a round. -/
def decidePreVerify (s : SpecDecodeScheduler) (req : LangRequest) : Nat × SpecDecodeScheduler :=
  match s.ahasd with
  | none => (0, s)
  | some a =>
      if a.config.enableTvc ∧ s.preVerifiedInRound[req.requestId]? ≠ some req.specRound then
        let (pvLen, a) :=
          (a.startNpuTask s.cycleCount).decidePreVerify req.currentLength req.plannedDraftLength
        (pvLen, { s with ahasd := some a })
      else (0, s)

/-- The common end of `case AWAIT_VERIFY`, for the chosen task and its length. -/
def issueVerification (s : SpecDecodeScheduler) (req : LangRequest) (task : LangTaskType)
    (taskK : Nat) (traceIssue : RoundTrace → RoundTrace) : Option SpecDecodeScheduler :=
  let s := s.requestRankSwitch req.requestId 1
  let s := s.updateRoundTrace req.requestId req.specRound traceIssue
  s.launch s.targetOrDraft.1 { req with verifyRoundId := req.specRound } taskK
    ⟨req.requestId, task, s.targetOrDraft.2, taskK, req.specRound, s.cycleCount⟩

/-- `case AWAIT_VERIFY`. -/
def issueVerify (s : SpecDecodeScheduler) (req : LangRequest) : Option SpecDecodeScheduler :=
  let (pvLen, s) := s.decidePreVerify req
  let k := max 1 req.plannedDraftLength
  if pvLen > 0 ∧ pvLen < k then
    let s := { s with
      preVerifiedInRound := s.preVerifiedInRound.insert req.requestId req.specRound }
    s.issueVerification req .preVerify pvLen fun t =>
      { t with
        preverifyCount := t.preverifyCount + 1
        preverifyTokens := t.preverifyTokens + pvLen }
  else
    s.issueVerification req .verify k fun t => { t with verifyIssueCycle := s.cycleCount }

/-- The `switch` of `try_issue_one_task`: every phase but `DONE` issues a model. -/
def issuePhase (s : SpecDecodeScheduler) (req : LangRequest) : Option (SpecDecodeScheduler × Bool) :=
  match req.specPhase with
  | .promptPending => (s.issuePrompt req).map (·, true)
  | .draftRoundStart =>
      let (req, s) := s.planRound req
      (s.issueDraft req).map (·, true)
  | .drafting => (s.issueDraft req).map (·, true)
  | .awaitVerify => (s.issueVerify req).map (·, true)
  | .done => some (s, false)

/-- `try_issue_one_task`. A stall that has run out is forgotten. -/
def tryIssueOneTask (s : SpecDecodeScheduler) (req : LangRequest) :
    Option (SpecDecodeScheduler × Bool) :=
  if req.running then some (s, false)
  else
    match s.kvStateStallUntil[req.requestId]? with
    | none => s.issuePhase req
    | some stallUntil =>
        if s.cycleCount < stallUntil then some (s, false)
        else
          { s with kvStateStallUntil := s.kvStateStallUntil.erase req.requestId }.issuePhase req

/-- The issue loop of `cycle`: the first request that issues a model ends it. -/
def issueLoop : List (Nat × LangRequest) → SpecDecodeScheduler → Option SpecDecodeScheduler
  | [], s => some s
  | (_, req) :: rest, s =>
      match s.tryIssueOneTask req with
      | none => none
      | some (s, true) => some s
      | some (s, false) => issueLoop rest s

/-- What `cycle` sets on an admitted request. -/
def prepareRequest (targetAttached : Bool) (r : LangRequest) : LangRequest :=
  { r with
    specPhase := if targetAttached then .promptPending else .draftRoundStart
    specRound := 0
    draftedInRound := 0
    plannedDraftLength := 0 }

/-- The clock step and the admission of `cycle`. -/
def tickAndAdmit (s : SpecDecodeScheduler) : SpecDecodeScheduler :=
  let s := { s with cycleCount := s.cycleCount + 1 }
  if s.activeRequests.size ≤ s.maxBatchSize ∨ s.maxBatchSize = 0 then
    { s with toLangScheduler :=
        s.toLangScheduler.admitLoop (prepareRequest s.targetModel.isSome) s.requestQueue }
  else s

/-- `cycle`. Without a target model the base scheduler's `cycle` runs, when nothing is in flight. -/
def cycle (s : SpecDecodeScheduler) : Option SpecDecodeScheduler :=
  let s := s.tickAndAdmit
  if s.targetModel.isNone then
    if s.modelQueue.isEmpty && s.requestsInModel.isEmpty then
      s.toLangScheduler.cycle.map fun base => { s with toLangScheduler := base }
    else some s
  else issueLoop s.activeRequests.toList s

/-- `pop_model`. -/
def popModel (s : SpecDecodeScheduler) : Option (Model × SpecDecodeScheduler) :=
  s.toLangScheduler.popModel.map fun r => (r.1, { s with toLangScheduler := r.2 })

/-! ## 4. Completions -/

/-- Elapsed cycles as the completion branches report them: at least one. -/
def elapsedCycles (s : SpecDecodeScheduler) (issueCycle : Nat) : Nat :=
  max 1 (s.cycleCount - issueCycle)

/-- `apply_verify_result`: what the accepted tokens do to the request. -/
def applyVerifyResult (s : SpecDecodeScheduler) (req : LangRequest) (acceptedLength : Nat) :
    LangRequest :=
  let newLength := min req.targetLength (req.currentLength + acceptedLength)
  let req := { req with currentLength := newLength }.resizeCache [newLength, s.cacheDim]
  if req.currentLength ≥ req.targetLength then
    { req with specPhase := .done, finishTime := s.cycleCount }
  else { req with specPhase := .draftRoundStart }

/-- The stall after a rollback, unless the request is done. -/
def stallRequest (s : SpecDecodeScheduler) (req : LangRequest) (rollbackCycles : Nat) :
    SpecDecodeScheduler :=
  if rollbackCycles > 0 ∧ req.specPhase ≠ .done then
    { s with
      kvStateStallUntil :=
        s.kvStateStallUntil.insert req.requestId (s.cycleCount + rollbackCycles) }
  else s

/-- The event a completion starts from. -/
def completionEvent (req : LangRequest) (issued : ModelMeta) : LangStepEvent where
  requestId := req.requestId
  promptLength := req.promptLength
  previousLength := req.currentLength
  currentLength := req.currentLength
  targetLength := req.targetLength
  generatedTokens := 0
  wasGenerationPhase := true
  taskType := issued.taskType
  modelRole := issued.role
  draftLength := issued.draftLengthAtIssue
  specRound := issued.verifyRound
  avgEntropy := computeEntropyHint req

/-- What `case PROMPT` does to the request: the cache covers the prompt. -/
def promptedRequest (s : SpecDecodeScheduler) (req : LangRequest) : LangRequest :=
  let newLength := req.currentLength + req.promptLength
  { req with
    currentLength := newLength
    genPhase := true
    specPhase := .draftRoundStart }.resizeCache [newLength, s.cacheDim]

/-- `case PROMPT`. -/
def finishPrompt (s : SpecDecodeScheduler) (req : LangRequest) (event : LangStepEvent) :
    LangStepEvent × SpecDecodeScheduler :=
  let req := s.promptedRequest req
  ({ event with wasGenerationPhase := false, currentLength := req.currentLength },
    { s with vskm := s.vskm.resetRequest req.requestId req.currentLength }.putRequest req)

/-- What `case DRAFT` does to the request: one speculative row more, not committed. -/
def draftedRequest (s : SpecDecodeScheduler) (req : LangRequest) : LangRequest :=
  { req with
    draftedInRound := req.draftedInRound + 1
    specPhase := if req.draftedInRound + 1 ≥ req.plannedDraftLength then .awaitVerify
      else .drafting }.resizeCache [req.currentLength + req.draftedInRound + 1, s.cacheDim]

/-- `case DRAFT`. The cycles of the round's last draft are the sample for TVC's draft table. -/
def finishDraft (s : SpecDecodeScheduler) (req : LangRequest) (issued : ModelMeta)
    (event : LangStepEvent) : LangStepEvent × SpecDecodeScheduler :=
  let s := { s with vskm := s.vskm.draftToken req.requestId }
  let s := s.updateRoundTrace req.requestId issued.verifyRound fun t =>
    { t with draftTasksFinished := t.draftTasksFinished + 1, draftFinishCycle := s.cycleCount }
  let s := s.updateAhasd (·.recordDraftTokensGenerated 1)
  let roundDrafted := decide (req.draftedInRound + 1 ≥ req.plannedDraftLength)
  let s := s.updateAhasd fun a =>
    if roundDrafted && a.config.enableTvc then
      a.recordDraftBatch (s.elapsedCycles issued.issueCycle) 1
    else a
  ({ event with generatedTokens := 1 }, s.putRequest (s.draftedRequest req))

/-- The SSRC retirement of `case VERIFY`. -/
def retireRound (s : SpecDecodeScheduler) (requestId verifyRound accepted k : Nat) :
    SpecDecodeScheduler :=
  match s.ssrc with
  | none => s
  | some c =>
      if c.isEnabled ∧ s.ssrcDeferredRound[requestId]? = some verifyRound then
        { s with
          ssrc := some (c.onRoundVerified requestId verifyRound accepted k)
          ssrcDeferredRound := s.ssrcDeferredRound.erase requestId }
      else s

/-- The erasures of a finished request. -/
def forgetRequest (s : SpecDecodeScheduler) (requestId : Nat) : SpecDecodeScheduler :=
  { s with
    lastRankMode := s.lastRankMode.erase requestId
    preVerifiedInRound := s.preVerifiedInRound.erase requestId
    ssrcDeferredRound := s.ssrcDeferredRound.erase requestId
    kvStateStallUntil := s.kvStateStallUntil.erase requestId
    activeRequests := s.activeRequests.erase requestId }

/-- The bookkeeping of `case VERIFY`: the round's trace, VSKM and the stall its rollback costs, the
    coordinator, the deferred round. `after` is the request with the accepted tokens applied. -/
def settleVerify (s : SpecDecodeScheduler) (after : LangRequest) (issued : ModelMeta)
    (k accepted : Nat) : SpecDecodeScheduler :=
  let id := after.requestId
  let s := s.updateRoundTrace id issued.verifyRound fun t =>
    { t with acceptedLength := accepted, verifyFinishCycle := s.cycleCount }
  let rollback := s.vskm.completeVerify id k accepted
  let s := { s with vskm := rollback.2 }
  let s := s.stallRequest after rollback.1
  let s := s.updateAhasd (·.recordVerifyResult (accepted == k) k accepted
    (s.elapsedCycles issued.issueCycle) after.currentLength true)
  s.retireRound id issued.verifyRound accepted k

/-- `case VERIFY`. -/
def finishVerify (s : SpecDecodeScheduler) (req : LangRequest) (issued : ModelMeta)
    (event : LangStepEvent) : LangStepEvent × SpecDecodeScheduler :=
  let k := max 1 issued.draftLengthAtIssue
  let (sampled, s) := s.sampleAcceptedLength req k
  let accepted := min k sampled
  let after := s.applyVerifyResult req accepted
  let s := s.settleVerify after issued k accepted
  ({ event with
      acceptedLength := accepted
      generatedTokens := accepted
      currentLength := after.currentLength },
    if after.specPhase = .done then s.forgetRequest req.requestId else s.putRequest after)

/-- `case PRE_VERIFY`: the phase stays, the verification is still to come. -/
def finishPreVerify (s : SpecDecodeScheduler) (req : LangRequest) (issued : ModelMeta)
    (event : LangStepEvent) : LangStepEvent × SpecDecodeScheduler :=
  let pvK := max 1 issued.draftLengthAtIssue
  let (sampled, s) := s.sampleAcceptedLength req pvK
  let pvAccepted := min pvK sampled
  let cycles := s.elapsedCycles issued.issueCycle
  let s := { s with vskm := s.vskm.preVerify req.requestId }
  let s := s.updateAhasd fun a =>
    (a.recordPreVerify cycles pvK).recordVerifyResult (pvAccepted == pvK) pvK pvAccepted cycles
      req.currentLength false
  ({ event with acceptedLength := pvAccepted, generatedTokens := pvAccepted }, s)

/-- The `switch` of `finish_model`. -/
def finishTask (s : SpecDecodeScheduler) (req : LangRequest) (issued : ModelMeta) :
    LangStepEvent × SpecDecodeScheduler :=
  let event := completionEvent req issued
  match issued.taskType with
  | .prompt => s.finishPrompt req event
  | .draft => s.finishDraft req issued event
  | .verify => s.finishVerify req issued event
  | .preVerify => s.finishPreVerify req issued event
  | .autoreg => (event, s)

/-- The end of `finish_model`: the event is published and the request released, when it is still
    active. -/
def release (s : SpecDecodeScheduler) (modelId requestId : Nat) (event : LangStepEvent) :
    SpecDecodeScheduler :=
  { s with
    lastFinishedEvents := [event]
    requestsInModel := s.requestsInModel.erase modelId
    activeRequests := s.activeRequests.modify requestId fun r => { r with running := false } }

/-- `finish_model`. A model id that is not recorded goes to the base scheduler. -/
def finishModel (s : SpecDecodeScheduler) (modelId : Nat) : Option SpecDecodeScheduler :=
  match s.modelMeta[modelId]? with
  | none =>
      (s.toLangScheduler.finishModel modelId).map fun base => { s with toLangScheduler := base }
  | some issued =>
      let s := { s with modelMeta := s.modelMeta.erase modelId, lastFinishedEvents := [] }
      match s.activeRequests[issued.requestId]? with
      | none => some { s with requestsInModel := s.requestsInModel.erase modelId }
      | some req =>
          let (event, s) := s.finishTask req issued
          some (s.release modelId issued.requestId event)

/-! ## 5. Construction -/

/-- The constructor. `_scheduler_config` stays null in the base class (its constructor's parameter
    has the member's name and is assigned to itself), so the key `default_draft_length` is never
    found; `max_batch_size` and `check_mem_size` are read from the parameter. -/
def new (lib : StdLib) (model : LanguageModel) (config : SimulationConfig)
    (schedulerConfig : SchedulerConfig) (rows : List RequestRow)
    (acceptRows : List (TraceKey × TraceRow)) (globals : Globals) : Option SpecDecodeScheduler :=
  match LangScheduler.new model config schedulerConfig rows globals with
  | none => none
  | some base =>
      let maxDraftLength := max 1 config.maxDraftLength
      some
        { toLangScheduler := base
          maxDraftLength := maxDraftLength
          defaultDraftLength := maxDraftLength
          acceptModel := .loadFromConfig lib config acceptRows
          vskm := .new
            { enableVskm := config.enableVskm
              kvManagementMode := config.kvManagementMode
              versionEntries := config.vskmVersionEntries
              enableLazyRollback := config.vskmEnableLazyRollback
              virtualUncommittedBatches := config.vskmVirtualUncommittedBatches }
            (kvBytesPerToken base) }

/-- `attach_target_model`: the first one stays. -/
def attachTargetModel (s : SpecDecodeScheduler) (target : LanguageModel) : SpecDecodeScheduler :=
  match s.targetModel with
  | some _ => s
  | none => { s with targetModel := some target }

/-- `attach_ahasd`. -/
def attachAhasd (s : SpecDecodeScheduler) (ahasd : Option AHASDIntegration)
    (pim : Option PIMBackend) : SpecDecodeScheduler :=
  { s with ahasd := ahasd, pim := pim }

/-- `attach_ssrc`. -/
def attachSsrc (s : SpecDecodeScheduler) (ssrc : Option SSRCCoordinator) : SpecDecodeScheduler :=
  { s with ssrc := ssrc }

end SpecDecodeScheduler

/-! ## 6. The simulator's set-up -/

/-- The AHASD configuration the simulator makes of its own. -/
def SimulationConfig.toAHASDConfig (config : SimulationConfig) : AHASDConfig where
  enableEdc := config.enableEdc
  enableTvc := config.enableTvc
  enableAau := config.enableAau
  pimFreqMhz := config.dramFreq
  npuFreqMhz := config.coreFreq
  maxDraftLength := config.maxDraftLength
  edcHMax := config.edcHMax
  edcLehtSize := config.edcLehtSize
  edcLlrBits := config.edcLlrBits
  tvcCycleTableSize := config.tvcCycleTableSize

/-- The SSRC configuration the simulator makes of its own. -/
def SimulationConfig.toSSRCConfig (config : SimulationConfig) : SSRCConfig where
  enable := config.ssrcEnable
  confidenceThreshold := config.ssrcConfidenceThreshold
  stateBytesPerToken := config.ssrcStateBytesPerToken
  residentLimitBytes := config.ssrcResidentLimitBytes
  bypassNs := config.ssrcBypassNs

/-- What a run is started from: the configuration, the registered models, the request trace, the
    replayed acceptance trace, and the static counters at that moment. -/
structure Setup where
  lib : StdLib
  config : SimulationConfig
  schedulerConfig : SchedulerConfig := {}
  draftModel : LanguageModel
  targetModel : Option LanguageModel
  rows : List RequestRow
  acceptRows : List (TraceKey × TraceRow) := []
  globals : Globals := {}

namespace Setup

/-- The coordinator of the simulator: present when AHASD is enabled. -/
def ahasd (c : Setup) : Option AHASDIntegration :=
  if c.config.enableAhasd then some (.new c.config.toAHASDConfig) else none

/-- The PIM backend of the simulator, as it is handed to the scheduler. -/
def pim (c : Setup) : Option PIMBackend :=
  if (PIMBackend.new c.config).active then some (.new c.config) else none

/-- The scheduler after `register_language_model` for the draft and, when given, the target. -/
def start (c : Setup) : Option SpecDecodeScheduler :=
  match SpecDecodeScheduler.new c.lib c.draftModel c.config c.schedulerConfig c.rows c.acceptRows
      c.globals with
  | none => none
  | some s =>
      let s := (s.attachAhasd c.ahasd c.pim).attachSsrc (some (.new c.config.toSSRCConfig))
      some (match c.targetModel with
        | some target => s.attachTargetModel target
        | none => s)

end Setup

end Ahasd
