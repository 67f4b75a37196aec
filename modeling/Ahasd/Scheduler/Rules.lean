/-
  File:      Ahasd/Scheduler/Rules.lean
  Subject:   THE RULES OF THE SPECULATIVE PROTOCOL: what one call of the scheduler is made of.

  A call of `cycle` is a clock step, some admissions, some stalls that run out and at most one
  issued model; the other calls are one rule each. Every later invariant is proved over the rules.

  * `Prepared`: the four tasks a model can be issued for, with all the branch does before it builds
    the model; `Rule`: the rules, with what they show;
  * `*_frame`: which fields the operations of the model can change, one equation each.
-/
import Ahasd.Scheduler.Machine

namespace Ahasd

open Std Transition

namespace SpecDecodeScheduler

/-! ## 1. Frames -/

section Frames

variable (s : SpecDecodeScheduler) (req : LangRequest)

/-- A rank switch changes the PIM backend and the remembered modes. -/
theorem requestRankSwitch_frame (requestId mode : Nat) : ∃ pim modes,
    s.requestRankSwitch requestId mode = { s with pim := pim, lastRankMode := modes } := by
  unfold requestRankSwitch
  split
  · split_ifs <;> exact ⟨_, _, rfl⟩
  · exact ⟨_, _, rfl⟩

/-- TVC's consultation changes the coordinator. -/
theorem decidePreVerify_frame : ∃ ahasd, (s.decidePreVerify req).2 = { s with ahasd := ahasd } := by
  unfold decidePreVerify
  split
  · exact ⟨_, rfl⟩
  · split_ifs <;> exact ⟨_, rfl⟩

@[simp] theorem requestRankSwitch_ahasd (requestId mode : Nat) :
    (s.requestRankSwitch requestId mode).ahasd = s.ahasd := by
  obtain ⟨pim, modes, hs⟩ := s.requestRankSwitch_frame requestId mode
  rw [hs]

@[simp] theorem requestRankSwitch_preVerifiedInRound (requestId mode : Nat) :
    (s.requestRankSwitch requestId mode).preVerifiedInRound = s.preVerifiedInRound := by
  obtain ⟨pim, modes, hs⟩ := s.requestRankSwitch_frame requestId mode
  rw [hs]

@[simp] theorem requestRankSwitch_roundTraces (requestId mode : Nat) :
    (s.requestRankSwitch requestId mode).roundTraces = s.roundTraces := by
  obtain ⟨pim, modes, hs⟩ := s.requestRankSwitch_frame requestId mode
  rw [hs]

@[simp] theorem updateRoundTrace_ahasd (requestId specRound : Nat) (f : RoundTrace → RoundTrace) :
    (s.updateRoundTrace requestId specRound f).ahasd = s.ahasd := rfl

@[simp] theorem updateRoundTrace_preVerifiedInRound (requestId specRound : Nat)
    (f : RoundTrace → RoundTrace) :
    (s.updateRoundTrace requestId specRound f).preVerifiedInRound = s.preVerifiedInRound := rfl

@[simp] theorem decidePreVerify_preVerifiedInRound :
    (s.decidePreVerify req).2.preVerifiedInRound = s.preVerifiedInRound := by
  obtain ⟨ahasd, hd⟩ := s.decidePreVerify_frame req
  rw [hd]

@[simp] theorem decidePreVerify_roundTraces :
    (s.decidePreVerify req).2.roundTraces = s.roundTraces := by
  obtain ⟨ahasd, hd⟩ := s.decidePreVerify_frame req
  rw [hd]

/-- A new stall changes the stalls. -/
theorem stallRequest_frame (rollbackCycles : Nat) : ∃ stalls,
    s.stallRequest req rollbackCycles = { s with kvStateStallUntil := stalls } := by
  unfold stallRequest
  split_ifs <;> exact ⟨_, rfl⟩

/-- Retiring a deferred round changes the coordinator of deferrals and the deferred rounds. -/
theorem retireRound_frame (requestId verifyRound accepted k : Nat) : ∃ ssrc deferred,
    s.retireRound requestId verifyRound accepted k =
      { s with ssrc := ssrc, ssrcDeferredRound := deferred } := by
  unfold retireRound
  split
  · exact ⟨_, _, rfl⟩
  · split_ifs <;> exact ⟨_, _, rfl⟩

end Frames

/-! ## 2. Tasks -/

/-- The request `planRound` leaves behind. -/
def plannedRequest (s : SpecDecodeScheduler) (req : LangRequest) : LangRequest :=
  { req with
    plannedDraftLength := (s.pickDraftLength req).1
    draftedInRound := 0
    specRound := req.specRound + 1
    specPhase := .drafting }

/-- The pre-verification TVC asks for fits: it is inserted. -/
def InsertsPreVerify (s : SpecDecodeScheduler) (req : LangRequest) : Prop :=
  (s.decidePreVerify req).1 > 0 ∧ (s.decidePreVerify req).1 < max 1 req.plannedDraftLength

/-- The tasks a request can be issued: the state before the model is built, the request it is built
    of, the language model, the sequence length and the record of the issue. -/
inductive Prepared (s : SpecDecodeScheduler) (req : LangRequest) :
    SpecDecodeScheduler → LangRequest → LanguageModel → Nat → ModelMeta → Prop where
  | prompt (h : req.specPhase = .promptPending) :
      Prepared s req (s.requestRankSwitch req.requestId 1) req s.targetOrDraft.1 req.promptLength
        ⟨req.requestId, .prompt, s.targetOrDraft.2, 0, 0, s.cycleCount⟩
  | draft (h : req.specPhase = .drafting) :
      Prepared s req
        ((s.requestRankSwitch req.requestId 0).updateRoundTrace req.requestId req.specRound fun t =>
          { t with
            draftIssueCycle := if t.draftIssueCycle = 0 then s.cycleCount else t.draftIssueCycle })
        req s.languageModel 1
        ⟨req.requestId, .draft, .draft, req.plannedDraftLength, req.specRound, s.cycleCount⟩
  | verify (h : req.specPhase = .awaitVerify) (hpv : ¬ s.InsertsPreVerify req) :
      Prepared s req
        (((s.decidePreVerify req).2.requestRankSwitch req.requestId 1).updateRoundTrace
          req.requestId req.specRound fun t => { t with verifyIssueCycle := s.cycleCount })
        { req with verifyRoundId := req.specRound } s.targetOrDraft.1 (max 1 req.plannedDraftLength)
        ⟨req.requestId, .verify, s.targetOrDraft.2, max 1 req.plannedDraftLength, req.specRound,
          s.cycleCount⟩
  | preVerify (h : req.specPhase = .awaitVerify) (hpv : s.InsertsPreVerify req) :
      Prepared s req
        (({ (s.decidePreVerify req).2 with
            preVerifiedInRound := s.preVerifiedInRound.insert req.requestId
              req.specRound }.requestRankSwitch req.requestId 1).updateRoundTrace
          req.requestId req.specRound fun t =>
            { t with
              preverifyCount := t.preverifyCount + 1
              preverifyTokens := t.preverifyTokens + (s.decidePreVerify req).1 })
        { req with verifyRoundId := req.specRound } s.targetOrDraft.1 (s.decidePreVerify req).1
        ⟨req.requestId, .preVerify, s.targetOrDraft.2, (s.decidePreVerify req).1, req.specRound,
          s.cycleCount⟩

/-- What a finished task leaves behind, and its event. -/
def completed (s : SpecDecodeScheduler) (modelId : Nat) (req : LangRequest) (info : ModelMeta) :
    LangStepEvent × SpecDecodeScheduler :=
  let s := { s with modelMeta := s.modelMeta.erase modelId, lastFinishedEvents := [] }
  ((s.finishTask req info).1,
    (s.finishTask req info).2.release modelId info.requestId (s.finishTask req info).1)

/-! ## 3. The rules -/

/-- The rules, with what an observer sees of each. -/
inductive Rule : SpecDecodeScheduler → SpecDecodeScheduler → List Event → Prop where
  | tick (s : SpecDecodeScheduler) : Rule s { s with cycleCount := s.cycleCount + 1 } []
  | admitOne (s : SpecDecodeScheduler) (r : LangRequest) (rest : List LangRequest)
      (hq : s.requestQueue = r :: rest) (ht : r.requestTime ≤ s.cycleCount) :
      Rule s { s with toLangScheduler :=
        s.toLangScheduler.admitOne (prepareRequest s.targetModel.isSome) r rest } []
  | unstall (s : SpecDecodeScheduler) (id : Nat) :
      Rule s { s with kvStateStallUntil := s.kvStateStallUntil.erase id } []
  | plan (s : SpecDecodeScheduler) (req : LangRequest)
      (hact : s.activeRequests[req.requestId]? = some req) (hrun : req.running = false)
      (hphase : req.specPhase = .draftRoundStart) :
      Rule s (s.planRound req).2
        [.planned req.requestId (req.specRound + 1) (computeEntropyHint req)
          ((s.planRound req).2.pendingPredictions.drop s.pendingPredictions.length)]
  | issue (s s₁ : SpecDecodeScheduler) (req req' : LangRequest) (model : LanguageModel)
      (seqLength : Nat) (info : ModelMeta) (built : Model) (g : Globals)
      (hact : s.activeRequests[req.requestId]? = some req) (hrun : req.running = false)
      (hprep : Prepared s req s₁ req' model seqLength info)
      (hgen : model.generateModel [modelInput req' info.taskType seqLength] s.globals
        = some (built, g)) :
      Rule s (s₁.launched req' info built g) [.issued built info]
  | pop (s : SpecDecodeScheduler) (model : Model) (rest : List Model)
      (hq : s.modelQueue = model :: rest) : Rule s { s with modelQueue := rest } []
  | finish (s : SpecDecodeScheduler) (modelId : Nat) (info : ModelMeta) (req : LangRequest)
      (hinfo : s.modelMeta[modelId]? = some info)
      (hact : s.activeRequests[info.requestId]? = some req) :
      Rule s (s.completed modelId req info).2 [.finished (s.completed modelId req info).1]
  /-- a finished model whose request is gone -/
  | orphan (s : SpecDecodeScheduler) (modelId : Nat) (info : ModelMeta)
      (hinfo : s.modelMeta[modelId]? = some info)
      (hact : s.activeRequests[info.requestId]? = none) :
      Rule s
        { s with
          modelMeta := s.modelMeta.erase modelId
          lastFinishedEvents := []
          requestsInModel := s.requestsInModel.erase modelId } []
  /-- a finished model that was never recorded -/
  | stray (s : SpecDecodeScheduler) (modelId : Nat) (base : LangScheduler)
      (hinfo : s.modelMeta[modelId]? = none)
      (hbase : s.toLangScheduler.finishModel modelId = some base) :
      Rule s { s with toLangScheduler := base } (base.lastFinishedEvents.map .finished)
  | beacon (s : SpecDecodeScheduler) (npuCycle : Nat) :
      Rule s (s.updateAhasd (·.cycleNpuWithProgress npuCycle)) []
  /-- the memory side works on the PIM backend and the SSRC coordinator -/
  | memory (s : SpecDecodeScheduler) (f : PIMBackend → PIMBackend)
      (g : SSRCCoordinator → SSRCCoordinator) (hf : ∀ p, PIMBackend.SameRanks p (f p))
      (hg : ∀ c, SSRCCoordinator.SameRounds c (g c)) :
      Rule s { s with pim := s.pim.map f, ssrc := s.ssrc.map g } []
  /-- another component draws ids or addresses -/
  | draw (s : SpecDecodeScheduler) (g : Globals) (hg : s.globals.idCounter ≤ g.idCounter) :
      Rule s { s with globals := g } []

end SpecDecodeScheduler

end Ahasd
