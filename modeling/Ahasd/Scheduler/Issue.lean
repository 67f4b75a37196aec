/-
  File:      Ahasd/Scheduler/Issue.lean
  Subject:   WHAT PLANNING A ROUND AND PREPARING A TASK CHANGE (`try_issue_one_task`, branch by
             branch).

  * `planOf`: what the trace of a round keeps of its plan;
  * `planRound_eq`: the planning of a round as one update of the state; `pickDraftLength_bounds`;
  * `Prepared.*`: what each task changes before its model is built;
  * `issuePhase_cases`: what a request is issued; `issueLoop_of_issuePhase`: the loop over them.
-/
import Ahasd.Lib.OrderedMap
import Ahasd.Scheduler.Rules

namespace Ahasd

open Std Transition OrderedMap

namespace SpecDecodeScheduler

/-! ## 1. The traces of the rounds -/

/-- The plan of a round, as its trace keeps it: the draft length and the entropy. -/
def planOf (s : SpecDecodeScheduler) (id round : Nat) : Option (Nat × ℚ) :=
  (s.roundTraces[(id, round)]?).map fun t => (t.plannedDraftLength, t.entropy)

/-- Writing to the trace of a planned round keeps every plan. -/
theorem updateRoundTrace_planOf {s : SpecDecodeScheduler} {id round : Nat}
    {f : RoundTrace → RoundTrace} (hplanned : (s.planOf id round).isSome)
    (hf : ∀ t, ((f t).plannedDraftLength, (f t).entropy) = (t.plannedDraftLength, t.entropy))
    (id' round' : Nat) :
    (s.updateRoundTrace id round f).planOf id' round' = s.planOf id' round' := by
  unfold planOf updateRoundTrace
  dsimp only
  rw [lookup_insert]
  split
  · next heq =>
      obtain ⟨rfl, rfl⟩ := Prod.mk.inj heq
      unfold planOf at hplanned
      obtain ⟨t, ht⟩ := Option.isSome_iff_exists.mp (Option.isSome_map ▸ hplanned)
      unfold roundTrace
      rw [ht]
      exact congrArg some (hf t)
  · rfl

/-! ## 2. Planning -/

/-- EDC is asked for the draft length. -/
def consultsEdc (s : SpecDecodeScheduler) : Bool :=
  s.ahasd.any fun a => a.config.enableEdc

/-- SSRC is asked whether to defer a round. -/
def consultsSsrc (s : SpecDecodeScheduler) : Bool :=
  s.ssrc.any SSRCCoordinator.isEnabled

section Planning

variable (s : SpecDecodeScheduler) (req : LangRequest)

/-- The hints a planning hands out, in the order of the calls: EDC before the round counter moves,
    the trace and SSRC after. -/
def planHints : List HintUse :=
  let id := req.requestId
  let after := computeEntropyHint (s.plannedRequest req)
  (if s.consultsEdc then [⟨.edc, id, req.specRound + 1, computeEntropyHint req⟩] else []) ++
    (⟨.trace, id, req.specRound + 1, after⟩ ::
      (if s.consultsSsrc then [⟨.ssrc, id, req.specRound + 1, after⟩] else []))

/-- **The picked length is at least 1 and no longer than what is left to generate** (1 when nothing
    is left). -/
theorem pickDraftLength_bounds : 1 ≤ (s.pickDraftLength req).1 ∧
    (s.pickDraftLength req).1 ≤ max 1 (req.targetLength - req.currentLength) := by
  have hcap : s.draftCap req ≤ max 1 (req.targetLength - req.currentLength) :=
    Nat.min_le_right _ _
  have hdefault : max 1 (min s.defaultDraftLength (s.draftCap req)) ≤
      max 1 (req.targetLength - req.currentLength) := by omega
  unfold pickDraftLength
  dsimp only
  split
  · exact ⟨Nat.le_max_left _ _, hdefault⟩
  · next a _ =>
      split
      · obtain ⟨hlow, hhigh⟩ :=
          a.decideDraftLength_bounds (s.draftCap req) (computeEntropyHint req)
        exact ⟨hlow, hhigh.trans (by omega)⟩
      · exact ⟨Nat.le_max_left _ _, hdefault⟩

/-- What picking a draft length does to the coordinator. -/
def planAhasd (a : AHASDIntegration) : AHASDIntegration :=
  if a.config.enableEdc then (a.decideDraftLength (s.draftCap req) (computeEntropyHint req)).2
  else a

/-- Picking a draft length changes the coordinator, and hands its hint to EDC. -/
theorem pickDraftLength_eq : (s.pickDraftLength req).2 =
    { s with
      ahasd := s.ahasd.map (s.planAhasd req)
      hintUses := s.hintUses ++
        (if s.consultsEdc then [⟨.edc, req.requestId, req.specRound + 1, computeEntropyHint req⟩]
          else []) } := by
  unfold pickDraftLength consultsEdc planAhasd
  dsimp only
  cases h : s.ahasd with
  | none =>
      have hs : s = { s with ahasd := none, hintUses := s.hintUses ++ [] } := by
        rw [List.append_nil, ← h]
      exact hs
  | some a =>
      dsimp only [Option.any_some, Option.map_some]
      split
      · rfl
      · have hs : s = { s with ahasd := some a, hintUses := s.hintUses ++ [] } := by
          rw [List.append_nil, ← h]
        exact hs

/-- SSRC's consultation changes the deferrals, and hands it the hint. -/
theorem deferRound_eq : ∃ ssrc deferred, s.deferRound req =
    { s with
      ssrc := ssrc
      ssrcDeferredRound := deferred
      hintUses := s.hintUses ++
        (if s.consultsSsrc then [⟨.ssrc, req.requestId, req.specRound, computeEntropyHint req⟩]
          else []) } := by
  have hnil : s = { s with hintUses := s.hintUses ++ [] } := by rw [List.append_nil]
  unfold deferRound consultsSsrc
  cases h : s.ssrc with
  | none => exact ⟨s.ssrc, s.ssrcDeferredRound, hnil⟩
  | some c =>
      dsimp only [Option.any_some]
      split
      · exact ⟨_, _, rfl⟩
      · exact ⟨s.ssrc, s.ssrcDeferredRound, hnil⟩

/-- **The planning of a round**, but for SSRC's decision. -/
theorem planRound_eq : ∃ ssrc deferred,
    (s.planRound req).2 =
      { s with
        ahasd := s.ahasd.map (s.planAhasd req)
        hintUses := s.hintUses ++ s.planHints req
        roundTraces := s.roundTraces.insert (req.requestId, req.specRound + 1)
          { s.roundTrace req.requestId (req.specRound + 1) with
            plannedDraftLength := (s.pickDraftLength req).1
            entropy := computeEntropyHint (s.plannedRequest req) }
        vskm := s.vskm.beginRound req.requestId (req.specRound + 1) req.currentLength
          (s.pickDraftLength req).1
        ssrc := ssrc
        ssrcDeferredRound := deferred
        activeRequests := s.activeRequests.insert req.requestId (s.plannedRequest req) } := by
  unfold planRound
  dsimp only
  rw [pickDraftLength_eq]
  generalize hdefer : deferRound _ _ = s₁
  obtain ⟨ssrc, deferred, heq⟩ := deferRound_eq _ _
  rw [hdefer] at heq
  refine ⟨ssrc, deferred, ?_⟩
  have hlist : s.hintUses ++ s.planHints req =
      s.hintUses ++ (if s.consultsEdc then
        [⟨.edc, req.requestId, req.specRound + 1, computeEntropyHint req⟩] else []) ++
      [⟨.trace, req.requestId, req.specRound + 1, computeEntropyHint (s.plannedRequest req)⟩] ++
      (if s.consultsSsrc then
        [⟨.ssrc, req.requestId, req.specRound + 1, computeEntropyHint (s.plannedRequest req)⟩]
        else []) := by
    simp only [planHints, List.append_assoc, List.singleton_append]
  rw [heq, hlist]
  rfl

/-- The planned request is the only entry planning changes. -/
theorem planRound_lookup (id : Nat) : (s.planRound req).2.activeRequests[id]? =
    if id = req.requestId then some (s.plannedRequest req) else s.activeRequests[id]? := by
  obtain ⟨ssrc, deferred, h⟩ := s.planRound_eq req
  rw [h]
  exact lookup_insert _ _ _ _

/-- What planning leaves alone. -/
theorem planRound_frame : (s.planRound req).2.targetModel = s.targetModel ∧
    (s.planRound req).2.requestQueue = s.requestQueue ∧
    (s.planRound req).2.modelMeta = s.modelMeta ∧
    (s.planRound req).2.requestsInModel = s.requestsInModel ∧
    (s.planRound req).2.preVerifiedInRound = s.preVerifiedInRound ∧
    (s.planRound req).2.numSimLayers = s.numSimLayers ∧
    (s.planRound req).2.globals = s.globals ∧ (s.planRound req).2.pim = s.pim ∧
    (s.planRound req).2.lastRankMode = s.lastRankMode := by
  obtain ⟨ssrc, deferred, h⟩ := s.planRound_eq req
  rw [h]
  exact ⟨rfl, rfl, rfl, rfl, rfl, rfl, rfl, rfl, rfl⟩

end Planning

/-! ## 3. Preparing a task -/

/-- At most one pre-verification is inserted in a round. -/
theorem InsertsPreVerify.notYet {s : SpecDecodeScheduler} {req : LangRequest}
    (h : s.InsertsPreVerify req) :
    s.preVerifiedInRound[req.requestId]? ≠ some req.specRound := by
  intro hdone
  have hpos := h.1
  unfold decidePreVerify at hpos
  split at hpos
  · exact absurd hpos (Nat.lt_irrefl 0)
  · rw [if_neg fun hc => hc.2 hdone] at hpos
    exact absurd hpos (Nat.lt_irrefl 0)

section Prepared

variable {s s₁ : SpecDecodeScheduler} {req req' : LangRequest} {model : LanguageModel}
  {seqLength : Nat} {info : ModelMeta}

/-- **The frame of the issue branches.** -/
theorem Prepared.frame (h : Prepared s req s₁ req' model seqLength info) :
    s₁ = { s with
      pim := s₁.pim
      lastRankMode := s₁.lastRankMode
      ahasd := s₁.ahasd
      preVerifiedInRound := s₁.preVerifiedInRound
      roundTraces := s₁.roundTraces } := by
  cases h with
  | prompt h =>
      obtain ⟨pim, modes, hs⟩ := s.requestRankSwitch_frame req.requestId 1
      rw [hs]
  | draft h =>
      unfold updateRoundTrace
      obtain ⟨pim, modes, hs⟩ := s.requestRankSwitch_frame req.requestId 0
      rw [hs]
  | verify h hpv =>
      unfold updateRoundTrace
      obtain ⟨ahasd, hd⟩ := s.decidePreVerify_frame req
      obtain ⟨pim, modes, hs⟩ := (s.decidePreVerify req).2.requestRankSwitch_frame req.requestId 1
      rw [hs, hd]
  | preVerify h hpv =>
      unfold updateRoundTrace
      obtain ⟨ahasd, hd⟩ := s.decidePreVerify_frame req
      rw [hd]
      obtain ⟨pim, modes, hs⟩ := requestRankSwitch_frame
        { s with
          ahasd := ahasd
          preVerifiedInRound := s.preVerifiedInRound.insert req.requestId req.specRound }
        req.requestId 1
      rw [hs]

/-- The request of the model is the one issued, up to the verified round's id. -/
theorem Prepared.request (h : Prepared s req s₁ req' model seqLength info) :
    req' = { req with verifyRoundId := req'.verifyRoundId } ∧ info.requestId = req.requestId := by
  cases h <;> exact ⟨rfl, rfl⟩

/-- What TVC's consultation does to the coordinator stays inside TVC. -/
theorem decidePreVerify_ahasd (s : SpecDecodeScheduler) (req : LangRequest) :
    ∃ tvc : AHASDIntegration → AHASDIntegration,
      (s.decidePreVerify req).2.ahasd = s.ahasd.map tvc ∧ ∀ a, (tvc a).config = a.config ∧
        (tvc a).tokens = a.tokens ∧ (tvc a).predictor = a.predictor := by
  unfold decidePreVerify
  cases ha : s.ahasd with
  | none => exact ⟨id, ha, fun _ => ⟨rfl, rfl, rfl⟩⟩
  | some a =>
      dsimp only
      split
      · refine ⟨fun a =>
          ((a.startNpuTask s.cycleCount).decidePreVerify req.currentLength
            req.plannedDraftLength).2, rfl, fun a => ?_⟩
        simp
      · exact ⟨id, ha, fun _ => ⟨rfl, rfl, rfl⟩⟩

/-- **Only the two verifications consult TVC.** -/
theorem Prepared.ahasd_eq (h : Prepared s req s₁ req' model seqLength info) :
    s₁.ahasd = if info.taskType = .verify ∨ info.taskType = .preVerify then
      (s.decidePreVerify req).2.ahasd else s.ahasd := by
  cases h <;> simp

/-- **Preparing a task changes nothing of the coordinator outside TVC.** -/
theorem Prepared.ahasd_map (h : Prepared s req s₁ req' model seqLength info) :
    ∃ tvc : AHASDIntegration → AHASDIntegration, s₁.ahasd = s.ahasd.map tvc ∧
      ∀ a, (tvc a).config = a.config ∧ (tvc a).tokens = a.tokens ∧
        (tvc a).predictor = a.predictor := by
  rw [h.ahasd_eq]
  split
  · exact s.decidePreVerify_ahasd req
  · exact ⟨id, Option.map_id'.symm, fun _ => ⟨rfl, rfl, rfl⟩⟩

/-- Only a pre-verification is remembered as one. -/
theorem Prepared.preVerified_eq (h : Prepared s req s₁ req' model seqLength info) :
    s₁.preVerifiedInRound =
      if info.taskType = .preVerify then s.preVerifiedInRound.insert req.requestId req.specRound
      else s.preVerifiedInRound := by
  cases h <;> simp

/-- Preparing a task of a planned round keeps every plan. -/
theorem Prepared.planOf_eq (h : Prepared s req s₁ req' model seqLength info)
    (hplanned : req.specPhase ≠ .promptPending → (s.planOf req.requestId req.specRound).isSome)
    (id round : Nat) : s₁.planOf id round = s.planOf id round := by
  have hplan : ∀ t : SpecDecodeScheduler, t.roundTraces = s.roundTraces →
      ∀ id round, t.planOf id round = s.planOf id round := by
    intro t ht id round
    unfold planOf
    rw [ht]
  have htrace : ∀ (t : SpecDecodeScheduler) (f : RoundTrace → RoundTrace),
      t.roundTraces = s.roundTraces → req.specPhase ≠ .promptPending →
      (∀ t, ((f t).plannedDraftLength, (f t).entropy) = (t.plannedDraftLength, t.entropy)) →
      (t.updateRoundTrace req.requestId req.specRound f).planOf id round = s.planOf id round := by
    intro t f ht hphase hf
    rw [updateRoundTrace_planOf (by rw [hplan t ht]; exact hplanned hphase) hf]
    exact hplan t ht id round
  cases h with
  | prompt h => exact hplan _ (by simp) id round
  | draft h => exact htrace _ _ (by simp) (by simp [h]) fun _ => rfl
  | verify h hpv => exact htrace _ _ (by simp) (by simp [h]) fun _ => rfl
  | preVerify h hpv => exact htrace _ _ (by simp) (by simp [h]) fun _ => rfl

/-- What issuing a task leaves behind: the entry of its request, the record of its model, and the
    rest of the state but for the rank modes, TVC and the remembered pre-verification. -/
structure Launched (s s' : SpecDecodeScheduler) (req : LangRequest) (info : ModelMeta)
    (built : Model) : Prop where
  fresh : built.id = s.globals.idCounter
  counter : s'.globals.idCounter = s.globals.idCounter + 1
  active : ∃ verifyRoundId, ∀ id : Nat, s'.activeRequests[id]? =
    if id = req.requestId then
      some { req with verifyRoundId, lastTaskType := info.taskType, running := true }
    else s.activeRequests[id]?
  modelMeta : ∀ mid : Nat, s'.modelMeta[mid]? =
    if mid = built.id then some info else s.modelMeta[mid]?
  inModel : ∀ mid : Nat, s'.requestsInModel[mid]? =
    if mid = built.id then some ((s.requestsInModel[built.id]?).getD [] ++ [req.requestId])
    else s.requestsInModel[mid]?
  preVerified : s'.preVerifiedInRound =
    if info.taskType = .preVerify then s.preVerifiedInRound.insert req.requestId req.specRound
    else s.preVerifiedInRound
  target : s'.targetModel = s.targetModel
  queue : s'.requestQueue = s.requestQueue
  vskm : s'.vskm = s.vskm
  hints : s'.hintUses = s.hintUses
  layers : s'.numSimLayers = s.numSimLayers

theorem Prepared.launched (h : Prepared s req s₁ req' model seqLength info) {built : Model}
    {g : Globals}
    (hgen : model.generateModel [modelInput req' info.taskType seqLength] s.globals =
      some (built, g)) : Launched s (s₁.launched req' info built g) req info built := by
  obtain ⟨hreq', _⟩ := h.request
  obtain ⟨hbuilt, hg, _, _, _⟩ := LanguageModel.generateModel_spec hgen
  have hkey : req'.requestId = req.requestId := by rw [hreq']
  have hframe := h.frame
  refine ⟨hbuilt, hg, ⟨req'.verifyRoundId, fun id => ?_⟩, fun mid => ?_, fun mid => ?_,
    h.preVerified_eq, by rw [hframe]; rfl, by rw [hframe]; rfl, by rw [hframe]; rfl,
    by rw [hframe]; rfl, by rw [hframe]; rfl⟩
  · rw [hframe]
    refine (lookup_insert _ _ _ _).trans ?_
    rw [hkey, ← hkey, hreq']
  · rw [hframe]
    exact lookup_insert _ _ _ _
  · rw [hframe]
    exact (lookup_insert _ _ _ _).trans (by rw [hkey])

end Prepared

/-! ## 4. What `try_issue_one_task` can do -/

section Issue

variable {s s' : SpecDecodeScheduler} {req : LangRequest}

/-- The task of a request is a prepared one, and its model is launched. -/
def IssuesTask (s : SpecDecodeScheduler) (req : LangRequest) (s' : SpecDecodeScheduler) : Prop :=
  ∃ s₁ req' model seqLength info, Prepared s req s₁ req' model seqLength info ∧
    s₁.launch model req' seqLength info = some s'

theorem issuePrompt_task (hphase : req.specPhase = .promptPending)
    (h : s.issuePrompt req = some s') : IssuesTask s req s' := by
  refine ⟨_, _, _, _, _, .prompt hphase, ?_⟩
  obtain ⟨pim, modes, hs⟩ := s.requestRankSwitch_frame req.requestId 1
  unfold issuePrompt targetOrDraft at h
  unfold targetOrDraft
  rw [hs] at h ⊢
  exact h

theorem issueDraft_task (hphase : req.specPhase = .drafting)
    (h : s.issueDraft req = some s') : IssuesTask s req s' := by
  refine ⟨_, _, _, _, _, .draft hphase, ?_⟩
  obtain ⟨pim, modes, hs⟩ := s.requestRankSwitch_frame req.requestId 0
  unfold issueDraft updateRoundTrace at h
  unfold updateRoundTrace
  rw [hs] at h ⊢
  exact h

theorem issueVerify_task (hphase : req.specPhase = .awaitVerify)
    (h : s.issueVerify req = some s') : IssuesTask s req s' := by
  obtain ⟨ahasd, hd⟩ := s.decidePreVerify_frame req
  unfold issueVerify at h
  dsimp only at h
  split at h
  · next hpv =>
      refine ⟨_, _, _, _, _, .preVerify hphase hpv, ?_⟩
      obtain ⟨pim, modes, hs⟩ := requestRankSwitch_frame
        { (s.decidePreVerify req).2 with
          preVerifiedInRound := s.preVerifiedInRound.insert req.requestId req.specRound }
        req.requestId 1
      have hpre : (s.decidePreVerify req).2.preVerifiedInRound = s.preVerifiedInRound := by rw [hd]
      unfold issueVerification targetOrDraft updateRoundTrace at h
      unfold targetOrDraft updateRoundTrace
      dsimp only at h
      rw [hpre, hs, hd] at h
      rw [hs, hd]
      exact h
  · next hpv =>
      refine ⟨_, _, _, _, _, .verify hphase hpv, ?_⟩
      obtain ⟨pim, modes, hs⟩ := (s.decidePreVerify req).2.requestRankSwitch_frame req.requestId 1
      unfold issueVerification targetOrDraft updateRoundTrace at h
      unfold targetOrDraft updateRoundTrace
      dsimp only at h
      rw [hs, hd] at h
      rw [hs, hd]
      exact h

/-- **What a request is issued**: nothing once it is done, else a task; at the start of a round the
    round is planned first. -/
theorem issuePhase_cases {issued : Bool} (h : s.issuePhase req = some (s', issued)) :
    (req.specPhase = .done ∧ issued = false ∧ s' = s) ∨
      (req.specPhase ≠ .done ∧ req.specPhase ≠ .draftRoundStart ∧ issued = true ∧
        IssuesTask s req s') ∨
      (req.specPhase = .draftRoundStart ∧ issued = true ∧
        IssuesTask (s.planRound req).2 (s.plannedRequest req) s') := by
  unfold issuePhase at h
  cases hphase : req.specPhase with
  | done =>
      rw [hphase] at h
      cases h
      exact .inl ⟨rfl, rfl, rfl⟩
  | promptPending =>
      rw [hphase] at h
      obtain ⟨_, h₁, heq⟩ := Option.map_eq_some_iff.mp h
      cases heq
      exact .inr (.inl ⟨by decide, by decide, rfl, issuePrompt_task hphase h₁⟩)
  | drafting =>
      rw [hphase] at h
      obtain ⟨_, h₁, heq⟩ := Option.map_eq_some_iff.mp h
      cases heq
      exact .inr (.inl ⟨by decide, by decide, rfl, issueDraft_task hphase h₁⟩)
  | awaitVerify =>
      rw [hphase] at h
      obtain ⟨_, h₁, heq⟩ := Option.map_eq_some_iff.mp h
      cases heq
      exact .inr (.inl ⟨by decide, by decide, rfl, issueVerify_task hphase h₁⟩)
  | draftRoundStart =>
      rw [hphase] at h
      obtain ⟨_, h₁, heq⟩ := Option.map_eq_some_iff.mp h
      cases heq
      exact .inr (.inr ⟨rfl, rfl, issueDraft_task rfl h₁⟩)

end Issue

/-- `try_issue_one_task` goes on to the phase of the request: it is neither running nor stalled. -/
def canIssue (s : SpecDecodeScheduler) (req : LangRequest) : Bool :=
  !req.running && (s.kvStateStallUntil[req.requestId]?).all (· ≤ s.cycleCount)

/-- A stall that has run out is forgotten. -/
def unstall (s : SpecDecodeScheduler) (req : LangRequest) : SpecDecodeScheduler :=
  match s.kvStateStallUntil[req.requestId]? with
  | none => s
  | some _ => { s with kvStateStallUntil := s.kvStateStallUntil.erase req.requestId }

theorem tryIssueOneTask_eq (s : SpecDecodeScheduler) (req : LangRequest) :
    s.tryIssueOneTask req =
      if s.canIssue req then (s.unstall req).issuePhase req else some (s, false) := by
  unfold tryIssueOneTask canIssue unstall
  cases req.running with
  | true => simp
  | false =>
      cases s.kvStateStallUntil[req.requestId]? with
      | none => simp
      | some stallUntil =>
          by_cases hlt : s.cycleCount < stallUntil
          · simp [hlt, Nat.not_le.mpr hlt]
          · simp [hlt, Nat.le_of_not_lt hlt]

/-- What the phases of its requests keep, the issue loop keeps. -/
theorem issueLoop_of_issuePhase {P : SpecDecodeScheduler → Prop} {entries : List (Nat × LangRequest)}
    (hunstall : ∀ s req, P s → P (s.unstall req))
    (hphase : ∀ p ∈ entries, ∀ s s' issued, P s → s.issuePhase p.2 = some (s', issued) → P s')
    {s s' : SpecDecodeScheduler} (h : issueLoop entries s = some s') (hs : P s) : P s' := by
  induction entries generalizing s with
  | nil =>
      cases h
      exact hs
  | cons entry rest ih =>
      have htry : ∀ {s₁ : SpecDecodeScheduler} {issued : Bool},
          s.tryIssueOneTask entry.2 = some (s₁, issued) → P s₁ := by
        intro s₁ issued htry
        rw [tryIssueOneTask_eq] at htry
        split at htry
        · exact hphase entry List.mem_cons_self _ _ _ (hunstall s entry.2 hs) htry
        · cases htry
          exact hs
      unfold issueLoop at h
      split at h
      · cases h
      · next s₁ hone =>
          cases h
          exact htry hone
      · next s₁ hone =>
          exact ih (fun p hp => hphase p (List.mem_cons_of_mem _ hp)) h (htry hone)

end SpecDecodeScheduler

end Ahasd
