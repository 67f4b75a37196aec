/-
  File:      Ahasd/Scheduler/Moves.lean
  Subject:   THE RULES AS THE REQUESTS SEE THEM: admission, planning, issue, completion, and the
             rest.

  Most rules leave the requests and their rounds alone. A `Move` is a rule with all of these merged
  into one case, so an invariant of the rounds has five cases, and what the coordinator's token
  counters and predictor do in each.

  * `Minor`, `Move`: the merged case and the five cases; `ProtocolOk.move`: every rule is a move;
  * `planAhasd_*`, `taskAhasd_*`: the configuration, the token counters and the predictor of the
    coordinator over a planning and a completion.
-/
import Ahasd.Scheduler.Steps

namespace Ahasd

open Std Transition OrderedMap

namespace SpecDecodeScheduler

/-! ## 1. Moves -/

/-- The two states agree on the requests, their rounds and what is accounted for them. -/
structure Minor (s s' : SpecDecodeScheduler) : Prop where
  target : s'.targetModel = s.targetModel
  draft : s'.languageModel = s.languageModel
  layers : s'.numSimLayers = s.numSimLayers
  queue : s'.requestQueue = s.requestQueue
  active : s'.activeRequests = s.activeRequests
  modelMeta : s'.modelMeta = s.modelMeta
  preVerified : s'.preVerifiedInRound = s.preVerifiedInRound
  traces : s'.roundTraces = s.roundTraces
  vskm : s'.vskm = s.vskm
  hints : s'.hintUses = s.hintUses
  modes : s'.lastRankMode = s.lastRankMode
  ahasd : ∃ tvc : AHASDIntegration → AHASDIntegration, s'.ahasd = s.ahasd.map tvc ∧
    ∀ a, (tvc a).config = a.config ∧ (tvc a).tokens = a.tokens ∧ (tvc a).predictor = a.predictor
  pim : ∃ f : PIMBackend → PIMBackend, s'.pim = s.pim.map f ∧ ∀ p, PIMBackend.SameRanks p (f p)
  ssrc : ∃ g : SSRCCoordinator → SSRCCoordinator, s'.ssrc = s.ssrc.map g ∧
    ∀ c, SSRCCoordinator.SameRounds c (g c)
  deferred : s'.ssrcDeferredRound = s.ssrcDeferredRound

/-- Nothing was done to the coordinators, nor to the PIM backend. -/
theorem ahasd_same (s : SpecDecodeScheduler) :
    ∃ tvc : AHASDIntegration → AHASDIntegration, s.ahasd = s.ahasd.map tvc ∧
      ∀ a, (tvc a).config = a.config ∧ (tvc a).tokens = a.tokens ∧
        (tvc a).predictor = a.predictor :=
  ⟨id, Option.map_id'.symm, fun _ => ⟨rfl, rfl, rfl⟩⟩

theorem pim_same (s : SpecDecodeScheduler) :
    ∃ f : PIMBackend → PIMBackend, s.pim = s.pim.map f ∧ ∀ p, PIMBackend.SameRanks p (f p) :=
  ⟨id, Option.map_id'.symm, .refl⟩

theorem ssrc_same (s : SpecDecodeScheduler) :
    ∃ g : SSRCCoordinator → SSRCCoordinator, s.ssrc = s.ssrc.map g ∧
      ∀ c, SSRCCoordinator.SameRounds c (g c) :=
  ⟨id, Option.map_id'.symm, .refl⟩

/-- A finished task, with what the invariant knows of it, and the request it leaves behind. -/
inductive TaskDone (s : SpecDecodeScheduler) (req : LangRequest) (info : ModelMeta) :
    Option LangRequest → Prop where
  | prompt (hty : info.taskType = .prompt) (hphase : req.specPhase = .promptPending)
      (hround : info.verifyRound = 0) : TaskDone s req info (some (s.promptedRequest req))
  | draft (hty : info.taskType = .draft) (hphase : req.specPhase = .drafting)
      (hround : info.verifyRound = req.specRound) (hpos : 1 ≤ req.specRound)
      (hlength : info.draftLengthAtIssue = req.plannedDraftLength)
      (hlt : req.draftedInRound < req.plannedDraftLength) :
      TaskDone s req info (some (s.draftedRequest req))
  | verify (hty : info.taskType = .verify) (hphase : req.specPhase = .awaitVerify)
      (hround : info.verifyRound = req.specRound) (hpos : 1 ≤ req.specRound)
      (hlength : info.draftLengthAtIssue = req.plannedDraftLength)
      (hdrafted : req.draftedInRound = req.plannedDraftLength)
      (hplanned : 1 ≤ req.plannedDraftLength)
      (hnext : (s.applyVerifyResult req (s.acceptedBy req info)).specPhase = .draftRoundStart) :
      TaskDone s req info (some (s.applyVerifyResult req (s.acceptedBy req info)))
  | retire (hty : info.taskType = .verify) (hphase : req.specPhase = .awaitVerify)
      (hround : info.verifyRound = req.specRound) (hpos : 1 ≤ req.specRound)
      (hlength : info.draftLengthAtIssue = req.plannedDraftLength)
      (hdrafted : req.draftedInRound = req.plannedDraftLength)
      (hplanned : 1 ≤ req.plannedDraftLength) : TaskDone s req info none
  | preVerify (hty : info.taskType = .preVerify) (hphase : req.specPhase = .awaitVerify)
      (hround : info.verifyRound = req.specRound) (hpos : 1 ≤ req.specRound)
      (hdrafted : req.draftedInRound = req.plannedDraftLength)
      (hlength : 1 ≤ info.draftLengthAtIssue ∧ info.draftLengthAtIssue < req.plannedDraftLength)
      (hdone : s.preVerifiedInRound[req.requestId]? = some req.specRound) :
      TaskDone s req info (some req)

/-- A task is the prompt's, or one of its request's current round. -/
theorem TaskDone.round {s : SpecDecodeScheduler} {req : LangRequest} {info : ModelMeta}
    {after : Option LangRequest} (h : TaskDone s req info after) :
    (info.taskType = .prompt ∧ req.specPhase = .promptPending ∧ info.verifyRound = 0) ∨
      (info.verifyRound = req.specRound ∧ 1 ≤ req.specRound) := by
  cases h with
  | prompt hty hphase hround => exact .inl ⟨hty, hphase, hround⟩
  | draft hty hphase hround hpos => exact .inr ⟨hround, hpos⟩
  | verify hty hphase hround hpos => exact .inr ⟨hround, hpos⟩
  | retire hty hphase hround hpos => exact .inr ⟨hround, hpos⟩
  | preVerify hty hphase hround hpos => exact .inr ⟨hround, hpos⟩

/-- **What the invariant knows of a finished task.** -/
theorem ProtocolOk.taskDone {s : SpecDecodeScheduler} (I : ProtocolOk s) {modelId : Nat}
    {info : ModelMeta} {req : LangRequest} (hinfo : s.modelMeta[modelId]? = some info)
    (hid : info.requestId = req.requestId) (hact : s.activeRequests[req.requestId]? = some req) :
    TaskDone s req info (s.afterTask req info) := by
  obtain ⟨_, r, hr, _, htask⟩ := I.tasks _ _ hinfo
  rw [hid, hact, Option.some.injEq] at hr
  subst hr
  have hphase := (I.requests _ _ hact).phase
  unfold TaskOk at htask
  unfold LangRequest.PhaseFacts at hphase
  unfold afterTask
  dsimp only
  cases hty : info.taskType with
  | autoreg =>
      rw [hty] at htask
      exact htask.elim
  | prompt =>
      rw [hty] at htask
      exact .prompt hty htask.1 htask.2
  | draft =>
      rw [hty] at htask
      rw [htask.1] at hphase
      exact .draft hty htask.1 htask.2.2 hphase.1 htask.2.1 hphase.2
  | verify =>
      rw [hty] at htask
      rw [htask.1] at hphase
      dsimp only
      split
      · exact .retire hty htask.1 htask.2.2 hphase.1 htask.2.1 hphase.2.1 hphase.2.2
      · next hgo =>
          exact .verify hty htask.1 htask.2.2 hphase.1 htask.2.1 hphase.2.1 hphase.2.2
            (applyVerifyResult_next hgo)
  | preVerify =>
      rw [hty] at htask
      rw [htask.1] at hphase
      exact .preVerify hty htask.1 htask.2.2.1 hphase.1 hphase.2.1 htask.2.1
        (hid ▸ htask.2.2.2)

/-- The rules, as the requests see them. -/
inductive Move (s : SpecDecodeScheduler) : SpecDecodeScheduler → List Event → Prop where
  | minor (s' : SpecDecodeScheduler) (h : Minor s s') : Move s s' []
  | admitOne (r : LangRequest) (rest : List LangRequest) (hq : s.requestQueue = r :: rest) :
      Move s { s with toLangScheduler := s.toLangScheduler.admitOne (prepareRequest true) r rest } []
  | plan (req : LangRequest) (hact : s.activeRequests[req.requestId]? = some req)
      (hrun : req.running = false) (hphase : req.specPhase = .draftRoundStart) :
      Move s (s.planRound req).2
        [.planned req.requestId (req.specRound + 1) (computeEntropyHint req)
          ((s.planRound req).2.pendingPredictions.drop s.pendingPredictions.length)]
  | issue (s₁ : SpecDecodeScheduler) (req req' : LangRequest) (model : LanguageModel)
      (seqLength : Nat) (info : ModelMeta) (built : Model) (g : Globals)
      (hact : s.activeRequests[req.requestId]? = some req) (hrun : req.running = false)
      (hprep : Prepared s req s₁ req' model seqLength info)
      (hgen : model.generateModel [modelInput req' info.taskType seqLength] s.globals
        = some (built, g)) :
      Move s (s₁.launched req' info built g) [.issued built info]
  | finish (modelId : Nat) (info : ModelMeta) (req : LangRequest)
      (hinfo : s.modelMeta[modelId]? = some info) (hid : info.requestId = req.requestId)
      (hact : s.activeRequests[req.requestId]? = some req)
      (htask : TaskDone s req info (s.afterTask req info)) :
      Move s (s.completed modelId req info).2 [.finished (s.completed modelId req info).1]

/-- **Every rule is a move.** -/
theorem ProtocolOk.move {s s' : SpecDecodeScheduler} {e : List Event} (I : ProtocolOk s)
    (h : Rule s s' e) : Move s s' e := by
  have hahasd := s.ahasd_same
  have hpim := s.pim_same
  have hssrc := s.ssrc_same
  cases h with
  | tick => exact .minor _ ⟨rfl, rfl, rfl, rfl, rfl, rfl, rfl, rfl, rfl, rfl, rfl, hahasd, hpim,
      hssrc, rfl⟩
  | unstall id =>
      exact .minor _ ⟨rfl, rfl, rfl, rfl, rfl, rfl, rfl, rfl, rfl, rfl, rfl, hahasd, hpim,
      hssrc, rfl⟩
  | draw g hg =>
      exact .minor _ ⟨rfl, rfl, rfl, rfl, rfl, rfl, rfl, rfl, rfl, rfl, rfl, hahasd, hpim,
      hssrc, rfl⟩
  | pop model rest hq =>
      exact .minor _ ⟨rfl, rfl, rfl, rfl, rfl, rfl, rfl, rfl, rfl, rfl, rfl, hahasd, hpim,
      hssrc, rfl⟩
  | memory f g hf hg =>
      exact .minor _ ⟨rfl, rfl, rfl, rfl, rfl, rfl, rfl, rfl, rfl, rfl, rfl, hahasd,
      ⟨f, rfl, hf⟩, ⟨g, rfl, hg⟩, rfl⟩
  | beacon npuCycle =>
      refine .minor _ ⟨rfl, rfl, rfl, rfl, rfl, rfl, rfl, rfl, rfl, rfl, rfl, ?_, hpim,
        hssrc, rfl⟩
      exact ⟨_, rfl, fun a => by simp⟩
  | stray modelId base hinfo hbase =>
      obtain rfl := I.stray_eq hinfo hbase
      exact .minor _ ⟨rfl, rfl, rfl, rfl, rfl, rfl, rfl, rfl, rfl, rfl, rfl, hahasd, hpim,
      hssrc, rfl⟩
  | admitOne r rest hq ht =>
      rw [I.target]
      exact .admitOne r rest hq
  | plan req hact hrun hphase => exact .plan req hact hrun hphase
  | issue s₁ req req' model seqLength info built g hact hrun hprep hgen =>
      exact .issue s₁ req req' model seqLength info built g hact hrun hprep hgen
  | orphan modelId info hinfo hact =>
      obtain ⟨_, r, hr, _⟩ := I.tasks _ _ hinfo
      rw [hact] at hr
      cases hr
  | finish modelId info req hinfo hact =>
      have hid : info.requestId = req.requestId := (I.requests _ _ hact).keyed.symm
      have hact' := hid ▸ hact
      exact .finish modelId info req hinfo hid hact' (I.taskDone hinfo hid hact')

/-- The admitted request has no entry yet, and gets one. -/
theorem ProtocolOk.admit_fresh {s : SpecDecodeScheduler} (I : ProtocolOk s) {r : LangRequest}
    {rest : List LangRequest} (hq : s.requestQueue = r :: rest) :
    s.activeRequests[r.requestId]? = none := by
  cases hact : s.activeRequests[r.requestId]? with
  | none => rfl
  | some q =>
      have hlt := (I.requests _ _ hact).admitted r (hq ▸ List.mem_cons_self)
      exact absurd hlt (Nat.lt_irrefl _)

theorem admit_lookup (s : SpecDecodeScheduler) (r : LangRequest) (rest : List LangRequest)
    (id : Nat) :
    { s with toLangScheduler :=
      s.toLangScheduler.admitOne (prepareRequest true) r rest }.activeRequests[id]? =
      if id = r.requestId then some (prepareRequest true (s.toLangScheduler.initRequest r).1)
      else s.activeRequests[id]? :=
  lookup_insert _ _ _ _

/-! ## 2. The coordinator over a planning and a completion -/

section Coordinator

variable (s : SpecDecodeScheduler) (req : LangRequest) (info : ModelMeta) (a : AHASDIntegration)

theorem planAhasd_config : (s.planAhasd req a).config = a.config := by
  unfold planAhasd
  split
  · exact a.decideDraftLength_config _ _
  · rfl

theorem planAhasd_tokens : (s.planAhasd req a).tokens = a.tokens := by
  unfold planAhasd
  split
  · exact a.decideDraftLength_tokens _ _
  · rfl

theorem taskAhasd_config : (s.taskAhasd req info a).config = a.config := by
  unfold taskAhasd
  dsimp only
  cases info.taskType with
  | prompt => rfl
  | autoreg => rfl
  | draft =>
      dsimp only
      split
      · rw [AHASDIntegration.recordDraftBatch_config]
        rfl
      · rfl
  | verify => exact a.recordVerifyResult_config _ _ _ _ _ _
  | preVerify =>
      dsimp only
      rw [AHASDIntegration.recordVerifyResult_config, AHASDIntegration.recordPreVerify_config]

/-- The tokens a task adds to the counters: a draft generates one, a verification checks its draft
    and splits it. -/
def taskTokens (t : AHASDIntegration.TokenCounters) : AHASDIntegration.TokenCounters :=
  match info.taskType with
  | .draft => { t with pimDraft := t.pimDraft + 1 }
  | .verify =>
      let k := max 1 info.draftLengthAtIssue
      let accepted := s.acceptedBy req info
      { t with
        verified := t.verified + k
        accepted := t.accepted + accepted
        rejected := t.rejected + (k - accepted) }
  | _ => t

/-- A verification accepts at most its draft. -/
theorem acceptedBy_le : s.acceptedBy req info ≤ max 1 info.draftLengthAtIssue :=
  Nat.min_le_left _ _

theorem taskAhasd_tokens : (s.taskAhasd req info a).tokens = s.taskTokens req info a.tokens := by
  unfold taskAhasd taskTokens
  dsimp only
  cases info.taskType with
  | prompt => rfl
  | autoreg => rfl
  | draft =>
      dsimp only
      split
      · rw [AHASDIntegration.recordDraftBatch_tokens]
        rfl
      · rfl
  | verify => exact a.recordVerifyResult_tokens_final _ _ _ _ _ (s.acceptedBy_le req info)
  | preVerify =>
      dsimp only
      rw [AHASDIntegration.recordVerifyResult_tokens_pre, AHASDIntegration.recordPreVerify_tokens]

/-- A planning polls the predictor with the hint of the request, and only polls it. -/
theorem planAhasd_predictor :
    match a.predictor with
    | none => (s.planAhasd req a).predictor = none
    | some e => ∃ e' preds, (s.planAhasd req a).predictor = some e' ∧
        EDC.Polled (computeEntropyHint req) e e' preds := by
  unfold planAhasd
  cases he : a.predictor with
  | none =>
      dsimp only
      split
      · exact AHASDIntegration.decideDraftLength_predictor_none _ _ he
      · exact he
  | some e =>
      have hon : a.config.enableEdc = true := by
        unfold AHASDIntegration.predictor at he
        split at he
        · assumption
        · cases he
      dsimp only
      rw [if_pos hon]
      exact AHASDIntegration.decideDraftLength_predictor _ _ he

/-- The two verifications train the predictor, the other tasks leave it alone. -/
theorem taskAhasd_predictor : (s.taskAhasd req info a).predictor =
    if info.taskType = .verify ∨ info.taskType = .preVerify then
      a.predictor.map (·.updateOnVerification
        (s.acceptedBy req info == max 1 info.draftLengthAtIssue) (s.acceptedBy req info))
    else a.predictor := by
  unfold taskAhasd
  dsimp only
  cases info.taskType with
  | prompt => simp
  | autoreg => simp
  | draft =>
      refine Eq.trans ?_ (if_neg (by simp)).symm
      dsimp only
      split
      · rw [AHASDIntegration.recordDraftBatch_predictor]
        rfl
      · rfl
  | verify =>
      refine Eq.trans ?_ (if_pos (.inl rfl)).symm
      exact a.recordVerifyResult_predictor _ _ _ _ _ _
  | preVerify =>
      refine Eq.trans ?_ (if_pos (.inr rfl)).symm
      dsimp only
      rw [AHASDIntegration.recordVerifyResult_predictor,
        AHASDIntegration.recordPreVerify_predictor]

end Coordinator

end SpecDecodeScheduler

end Ahasd
