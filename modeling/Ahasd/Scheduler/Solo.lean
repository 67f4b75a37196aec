/-
  File:      Ahasd/Scheduler/Solo.lean
  Subject:   A REQUEST ON ITS OWN: without EDC, its rounds are those it would have alone.

  * `RoundSettings`: what the rounds read besides their request;
  * `RoundSettings.machine`: a request alone, one task after the other;
  * `OnCourse`, `OnCourse.move`: while its plannings are those of the request alone, the request is
    where it would be alone;
  * **`same_rounds`**: two runs with the same request show the same rounds of it.
-/
import Ahasd.Scheduler.Accounting
import Ahasd.Scheduler.EntropyHint

namespace Ahasd

open Std Transition OrderedMap

/-! ## 1. The request alone -/

/-- What the rounds of a request depend on, besides the request. -/
structure RoundSettings where
  acceptModel : SyntheticAcceptanceModel
  maxDraftLength : Nat
  defaultDraftLength : Nat

/-- A task of a round, as its event shows it: the draft length, the accepted length, and the
    committed length before and after it. -/
structure RoundTask where
  taskType : LangTaskType
  specRound : Nat
  draftLength : Nat
  acceptedLength : Nat
  previousLength : Nat
  currentLength : Nat
  deriving DecidableEq

def LangStepEvent.roundTask (e : LangStepEvent) : RoundTask where
  taskType := e.taskType
  specRound := e.specRound
  draftLength := e.draftLength
  acceptedLength := e.acceptedLength
  previousLength := e.previousLength
  currentLength := e.currentLength

/-- The drafts and verifications make a round; a pre-verification commits nothing. -/
def LangTaskType.ofRound : LangTaskType → Bool
  | draft => true
  | verify => true
  | _ => false

/-- What a finished task adds to the rounds of its request. -/
def LangStepEvent.shows (e : LangStepEvent) : List RoundTask :=
  if e.taskType.ofRound then [e.roundTask] else []

/-- **The rounds of a request**: its finished drafts and verifications, in order. -/
def roundTasks (id : Nat) (h : List Event) : List RoundTask :=
  (completions id h).flatMap LangStepEvent.shows

/-- The request of a row, as it is admitted. -/
def RequestRow.request (row : RequestRow) (id : Nat) : LangRequest where
  requestId := id
  requestTime := 0
  promptLength := row.promptLength
  currentLength := row.cachedLength
  targetLength := row.targetLength

/-- A request without its schedule: no times, no caches, no mark of a running task. -/
def LangRequest.unscheduled (r : LangRequest) : LangRequest where
  requestId := r.requestId
  requestTime := 0
  promptLength := r.promptLength
  currentLength := r.currentLength
  targetLength := r.targetLength
  specPhase := r.specPhase
  specRound := r.specRound
  plannedDraftLength := r.plannedDraftLength
  draftedInRound := r.draftedInRound

namespace RoundSettings

variable (p : RoundSettings) (r : LangRequest)

/-- The draft length of the next round. -/
def draftLength : Nat :=
  max 1 (min p.defaultDraftLength (min p.maxDraftLength (max 1 (r.targetLength - r.currentLength))))

/-- What the verification of the round accepts. -/
def accepted : Nat :=
  let k := max 1 r.plannedDraftLength
  min k (p.acceptModel.sample r.requestId r.specRound k (computeEntropyHint r))

/-- The next step of the request: its prompt, a planning, a draft or a verification. -/
def advance : Option LangRequest :=
  match r.specPhase with
  | .promptPending =>
      some { r with
        currentLength := r.currentLength + r.promptLength
        specPhase := .draftRoundStart }
  | .draftRoundStart =>
      some { r with
        plannedDraftLength := p.draftLength r
        draftedInRound := 0
        specRound := r.specRound + 1
        specPhase := .drafting }
  | .drafting =>
      some { r with
        draftedInRound := r.draftedInRound + 1
        specPhase := if r.draftedInRound + 1 ≥ r.plannedDraftLength then .awaitVerify
          else .drafting }
  | .awaitVerify =>
      let newLength := min r.targetLength (r.currentLength + p.accepted r)
      some { r with
        currentLength := newLength
        specPhase := if newLength ≥ r.targetLength then .done else .draftRoundStart }
  | .done => none

/-- What the step shows. -/
def shows (r' : LangRequest) : List RoundTask :=
  match r.specPhase with
  | .drafting => [⟨.draft, r.specRound, r.plannedDraftLength, 0, r.currentLength, r.currentLength⟩]
  | .awaitVerify =>
      [⟨.verify, r.specRound, r.plannedDraftLength, p.accepted r, r.currentLength,
        r'.currentLength⟩]
  | _ => []

/-- **A request alone.** -/
def machine : Machine LangRequest Unit RoundTask where
  step r _ := p.advance r
  obs r _ r' := p.shows r r'

/-- A request that is done stays where it is. -/
theorem done_stays {r' : LangRequest} {k : List RoundTask} (hdone : r.specPhase = .done)
    (hx : Exec p.machine r r' k) : k = [] := by
  rcases hx.head with ⟨_, hk⟩ | ⟨_, t, _, hstep, _⟩
  · exact hk
  · change p.advance r = some t at hstep
    unfold advance at hstep
    rw [hdone] at hstep
    cases hstep

/-- **Two stretches of a request alone are one, as far as both go**, and the same when both end with
    the request done. -/
theorem same_tasks {p : RoundSettings} {r r₁ r₂ : LangRequest} {k₁ k₂ : List RoundTask}
    (hx₁ : Exec p.machine r r₁ k₁) (hx₂ : Exec p.machine r r₂ k₂) :
    (k₁ <+: k₂ ∨ k₂ <+: k₁) ∧ (r₁.specPhase = .done → r₂.specPhase = .done → k₁ = k₂) := by
  rcases hx₁.ordered hx₂ with ⟨k, hk, heq⟩ | ⟨k, hk, heq⟩
  · refine ⟨.inl ⟨k, heq.symm⟩, fun hdone _ => ?_⟩
    rw [heq, done_stays _ _ hdone hk, List.append_nil]
  · refine ⟨.inr ⟨k, heq.symm⟩, fun _ hdone => ?_⟩
    rw [heq, done_stays _ _ hdone hk, List.append_nil]

end RoundSettings

/-! ## 2. What the settings are -/

def SpecDecodeScheduler.roundSettings (s : SpecDecodeScheduler) : RoundSettings :=
  ⟨s.acceptModel, s.maxDraftLength, s.defaultDraftLength⟩

/-- The settings of a set-up: its acceptance model and its bound on the draft length. -/
def Setup.roundSettings (c : Setup) : RoundSettings :=
  ⟨.loadFromConfig c.lib c.config c.acceptRows, max 1 c.config.maxDraftLength,
    max 1 c.config.maxDraftLength⟩

namespace SpecDecodeScheduler

/-- **No rule changes the settings.** -/
theorem Rule.roundSettings {s s' : SpecDecodeScheduler} {e : List Event} (h : Rule s s' e) :
    s'.roundSettings = s.roundSettings := by
  cases h with
  | plan req hact hrun hphase =>
      obtain ⟨ssrc, deferred, heq⟩ := s.planRound_eq req
      rw [heq]
      rfl
  | issue s₁ req req' model seqLength info built g hact hrun hprep hgen =>
      have hframe := hprep.frame
      show s₁.roundSettings = s.roundSettings
      rw [hframe]
      rfl
  | finish modelId info req hinfo hact =>
      obtain ⟨_, _, _, _, _, _, _, _, _, _, _, _, _, hframe⟩ := s.completed_frame modelId req info
      rw [hframe]
      rfl
  | tick => rfl
  | admitOne r rest hq ht => rfl
  | unstall id => rfl
  | pop model rest hq => rfl
  | orphan modelId info hinfo hact => rfl
  | stray modelId base hinfo hbase => rfl
  | beacon npuCycle => rfl
  | memory f g hf hg => rfl
  | draw g hg => rfl

/-- Without EDC the length of a round is that of the request alone. -/
theorem pickDraftLength_unadvised {s : SpecDecodeScheduler} (req : LangRequest)
    (hedc : ¬ s.consultsEdc = true) :
    (s.pickDraftLength req).1 = s.roundSettings.draftLength req := by
  unfold consultsEdc at hedc
  unfold pickDraftLength
  cases ha : s.ahasd with
  | none => rfl
  | some a =>
      rw [ha, Option.any_some] at hedc
      dsimp only
      rw [if_neg hedc]
      rfl

/-- **A planning of that length is the step of the request alone.** -/
theorem plannedRequest_advance {s : SpecDecodeScheduler} {req : LangRequest}
    (hphase : req.specPhase = .draftRoundStart)
    (hlength : (s.pickDraftLength req).1 = s.roundSettings.draftLength req) :
    s.roundSettings.advance req.unscheduled = some (s.plannedRequest req).unscheduled := by
  unfold RoundSettings.advance plannedRequest
  rw [show req.unscheduled.specPhase = .draftRoundStart from hphase, hlength]
  rfl

/-- A finished prompt is the step of the request alone. -/
theorem promptedRequest_advance {s : SpecDecodeScheduler} {req : LangRequest}
    (hphase : req.specPhase = .promptPending) :
    s.roundSettings.advance req.unscheduled = some (s.promptedRequest req).unscheduled := by
  unfold RoundSettings.advance
  rw [show req.unscheduled.specPhase = .promptPending from hphase]
  rfl

/-- A finished draft is the step of the request alone. -/
theorem draftedRequest_advance {s : SpecDecodeScheduler} {req : LangRequest}
    (hphase : req.specPhase = .drafting) :
    s.roundSettings.advance req.unscheduled = some (s.draftedRequest req).unscheduled := by
  unfold RoundSettings.advance
  rw [show req.unscheduled.specPhase = .drafting from hphase]
  rfl

/-- A verification of all drafts accepts what that of the request alone does. -/
theorem acceptedBy_alone {s : SpecDecodeScheduler} {req : LangRequest} {info : ModelMeta}
    (hlength : info.draftLengthAtIssue = req.plannedDraftLength) :
    s.acceptedBy req info = s.roundSettings.accepted req.unscheduled := by
  unfold acceptedBy
  rw [hlength]
  rfl

theorem applyVerifyResult_unscheduled (s : SpecDecodeScheduler) (req : LangRequest)
    (accepted : Nat) :
    (s.applyVerifyResult req accepted).unscheduled =
      let newLength := min req.targetLength (req.currentLength + accepted)
      { req.unscheduled with
        currentLength := newLength
        specPhase := if newLength ≥ req.targetLength then .done else .draftRoundStart } := by
  unfold applyVerifyResult LangRequest.resizeCache
  dsimp only
  split <;> rfl

/-- **A finished verification is the step of the request alone.** -/
theorem applyVerifyResult_advance {s : SpecDecodeScheduler} {req : LangRequest} {info : ModelMeta}
    (hphase : req.specPhase = .awaitVerify)
    (hlength : info.draftLengthAtIssue = req.plannedDraftLength) :
    s.roundSettings.advance req.unscheduled =
      some (s.applyVerifyResult req (s.acceptedBy req info)).unscheduled := by
  rw [applyVerifyResult_unscheduled, acceptedBy_alone hlength]
  unfold RoundSettings.advance
  rw [show req.unscheduled.specPhase = .awaitVerify from hphase]
  rfl

/-- The event of a finished draft accepts and commits nothing. -/
theorem completed_draft (s : SpecDecodeScheduler) (modelId : Nat) (req : LangRequest)
    {info : ModelMeta} (hty : info.taskType = .draft) :
    (s.completed modelId req info).1.acceptedLength = 0 ∧
      (s.completed modelId req info).1.currentLength = req.currentLength := by
  unfold completed finishTask
  dsimp only
  rw [hty]
  exact ⟨rfl, rfl⟩

/-- **A finished task but a pre-verification is the step of the request alone**, and shows the
    same. -/
theorem TaskDone.advance {s : SpecDecodeScheduler} {req : LangRequest} {info : ModelMeta}
    {after : Option LangRequest} (h : TaskDone s req info after)
    (hafter : s.afterTask req info = after) (modelId : Nat) (hty : info.taskType ≠ .preVerify) :
    ∃ r : LangRequest, s.roundSettings.advance req.unscheduled = some r.unscheduled ∧
      s.roundSettings.shows req.unscheduled r.unscheduled =
        (s.completed modelId req info).1.shows ∧
      (∀ q, after = some q → q = r) ∧ (after = none → r.specPhase = .done) := by
  obtain ⟨_, hety, hround', hlength', hprevious, haccepted, hcurrent⟩ :=
    s.completed_event modelId req info
  have hverified : info.taskType = .verify → req.specPhase = .awaitVerify →
      info.verifyRound = req.specRound → info.draftLengthAtIssue = req.plannedDraftLength →
      s.roundSettings.shows req.unscheduled
          (s.applyVerifyResult req (s.acceptedBy req info)).unscheduled =
        (s.completed modelId req info).1.shows := by
    intro hty hphase hround hlength
    unfold LangStepEvent.shows LangStepEvent.roundTask RoundSettings.shows
    rw [hety, hround', hlength', hprevious, haccepted (.inl hty), hcurrent hty, hty, hround,
      hlength, show req.unscheduled.specPhase = .awaitVerify from hphase,
      acceptedBy_alone hlength]
    rfl
  cases h with
  | prompt hty hphase hround =>
      refine ⟨_, promptedRequest_advance hphase, ?_, fun q hq => (Option.some.inj hq).symm,
        fun hnone => absurd hnone (Option.some_ne_none _)⟩
      unfold LangStepEvent.shows RoundSettings.shows
      rw [hety, hty, show req.unscheduled.specPhase = .promptPending from hphase]
      rfl
  | draft hty hphase hround hpos hlength hlt =>
      refine ⟨_, draftedRequest_advance hphase, ?_, fun q hq => (Option.some.inj hq).symm,
        fun hnone => absurd hnone (Option.some_ne_none _)⟩
      obtain ⟨hzero, hsame⟩ := s.completed_draft modelId req hty
      unfold LangStepEvent.shows LangStepEvent.roundTask RoundSettings.shows
      rw [hety, hround', hlength', hprevious, hzero, hsame, hty, hround, hlength,
        show req.unscheduled.specPhase = .drafting from hphase]
      rfl
  | verify hty hphase hround hpos hlength hdrafted hplanned hnext =>
      exact ⟨_, applyVerifyResult_advance hphase hlength, hverified hty hphase hround hlength,
        fun q hq => (Option.some.inj hq).symm, fun hnone => absurd hnone (Option.some_ne_none _)⟩
  | retire hty hphase hround hpos hlength hdrafted hplanned =>
      refine ⟨_, applyVerifyResult_advance hphase hlength, hverified hty hphase hround hlength,
        fun q hq => absurd hq.symm (Option.some_ne_none q), fun _ => ?_⟩
      unfold afterTask at hafter
      rw [hty] at hafter
      dsimp only at hafter
      split at hafter
      · assumption
      · cases hafter
  | preVerify hty' => exact absurd hty' hty

/-! ## 3. The request in a run -/

/-- Where the request of a row is, and what it showed: in the queue nothing, active what it shows
    alone up to there, and gone all of it. -/
structure OnCourse (p : RoundSettings) (row : RequestRow) (id : Nat) (s : SpecDecodeScheduler)
    (tasks : List RoundTask) : Prop where
  active : ∀ r : LangRequest, s.activeRequests[id]? = some r →
    Exec p.machine (row.request id) r.unscheduled tasks
  queued : ∀ q ∈ s.requestQueue, q.requestId = id → tasks = []
  gone : s.activeRequests[id]? = none → (∀ q ∈ s.requestQueue, q.requestId ≠ id) →
    ∃ r, r.specPhase = .done ∧ Exec p.machine (row.request id) r tasks

section OnCourse

variable {c : Setup} {row : RequestRow} {id : Nat} {s s' : SpecDecodeScheduler} {h e : List Event}
  {tasks : List RoundTask}

@[simp] theorem roundTasks_issued (built : Model) (info : ModelMeta) :
    roundTasks id (h ++ [.issued built info]) = roundTasks id h := by
  unfold roundTasks
  rw [completions_issued]

@[simp] theorem roundTasks_planned (requestId round : Nat) (hint : ℚ)
    (preds : List (Nat × Bool)) :
    roundTasks id (h ++ [.planned requestId round hint preds]) = roundTasks id h := by
  unfold roundTasks
  rw [completions_planned]

theorem roundTasks_finished (e : LangStepEvent) : roundTasks id (h ++ [.finished e]) =
    roundTasks id h ++ if e.requestId = id then e.shows else [] := by
  unfold roundTasks
  rw [completions_finished, List.flatMap_append]
  split
  · rw [List.flatMap_singleton]
  · rfl

/-- A row of the trace is a request of the queue the run starts with. -/
theorem mem_parseRows : ∀ (rows : List RequestRow) (first timeOffset i : Nat) (row : RequestRow),
    rows[i]? = some row → ∃ q ∈ parseRows first timeOffset rows, q.requestId = first + i
  | [], _, _, _, _, h => by cases h
  | row :: rows, first, timeOffset, 0, _, _ => ⟨_, List.mem_cons_self, rfl⟩
  | row :: rows, first, timeOffset, i + 1, row', h => by
      obtain ⟨q, hq, hid⟩ := mem_parseRows rows (first + 1) (u64 (timeOffset + row.time)) i row' h
      exact ⟨q, List.mem_cons_of_mem _ hq, by omega⟩

theorem Fresh.onCourse (F : Fresh c s) (hrow : c.rows[id]? = some row) :
    OnCourse c.roundSettings row id s [] := by
  refine ⟨fun r hr => ?_, fun q hq hid => rfl, fun _ hnone => ?_⟩
  · rw [F.noActive] at hr
    cases hr
  · obtain ⟨q, hq, hid⟩ := mem_parseRows c.rows 0 0 id row hrow
    rw [← F.queue] at hq
    exact absurd (hid.trans (Nat.zero_add id)) (hnone q hq)

/-- An admitted request is that of its row. -/
theorem admitted_unscheduled (C : Configured c s) (hrow : c.rows[id]? = some row) {r : LangRequest}
    {rest : List LangRequest} (hq : s.requestQueue = r :: rest) (hid : id = r.requestId) :
    (prepareRequest true (s.toLangScheduler.initRequest r).1).unscheduled = row.request id := by
  obtain ⟨⟨row', hrow', hprompt, htarget, _⟩, row'', hrow'', hcached⟩ :=
    C.queued r (hq ▸ List.mem_cons_self)
  rw [← hid, hrow, Option.some.injEq] at hrow' hrow''
  subst hrow' hrow''
  unfold LangRequest.unscheduled RequestRow.request
  rw [hid, ← hprompt, ← htarget, ← hcached]
  rfl

theorem OnCourse.admitOne (C : Configured c s)
    (O : OnCourse c.roundSettings row id s tasks) (hrow : c.rows[id]? = some row)
    {r : LangRequest} {rest : List LangRequest} (hq : s.requestQueue = r :: rest) :
    OnCourse c.roundSettings row id
      { s with toLangScheduler := s.toLangScheduler.admitOne (prepareRequest true) r rest }
      tasks := by
  have hactive := s.admit_lookup r rest id
  refine ⟨fun q hqa => ?_, fun q hqq => O.queued q (hq ▸ List.mem_cons_of_mem r hqq),
    fun hnone hgone => ?_⟩
  · rw [hactive] at hqa
    split at hqa
    · next hid =>
        cases hqa
        rw [admitted_unscheduled C hrow hq hid,
          O.queued r (hq ▸ List.mem_cons_self) hid.symm]
        exact .start
    · exact O.active q hqa
  · rw [hactive] at hnone
    split at hnone
    · cases hnone
    · next hne =>
        refine O.gone hnone fun q hqq => ?_
        rw [hq] at hqq
        rcases List.mem_cons.mp hqq with rfl | hqq
        · exact fun hid => hne hid.symm
        · exact hgone q hqq

theorem OnCourse.finish (I : ProtocolOk s) (hsettings : s.roundSettings = c.roundSettings)
    (O : OnCourse c.roundSettings row id s (roundTasks id h)) {modelId : Nat} {info : ModelMeta}
    {req : LangRequest}
    (hid : info.requestId = req.requestId) (hact : s.activeRequests[req.requestId]? = some req)
    (htask : TaskDone s req info (s.afterTask req info)) :
    OnCourse c.roundSettings row id (s.completed modelId req info).2
      (roundTasks id (h ++ [.finished (s.completed modelId req info).1])) := by
  have hactive := s.completed_activeRequests modelId req info hid hact id
  have hqueue := s.completed_requestQueue modelId req info
  have heid := (s.completed_event modelId req info).1
  by_cases hreq : id = req.requestId
  · subst hreq
    have hrun := O.active req hact
    rw [roundTasks_finished, if_pos heid]
    rw [if_pos rfl] at hactive
    have hnotQueued : ∀ q ∈ s.requestQueue, q.requestId ≠ req.requestId := fun q hq heq =>
      absurd ((I.requests _ _ hact).admitted q hq) (heq ▸ Nat.lt_irrefl _)
    by_cases hty : info.taskType = .preVerify
    · -- a pre-verification leaves the request where it was
      have hsame : s.afterTask req info = some req := by
        unfold afterTask
        rw [hty]
      have hshows : (s.completed modelId req info).1.shows = [] := by
        unfold LangStepEvent.shows
        rw [(s.completed_event modelId req info).2.1, hty]
        rfl
      rw [hshows, List.append_nil]
      rw [hsame] at hactive
      refine ⟨fun r hr => ?_, fun q hq heq => ?_, fun hnone => ?_⟩
      · rw [hactive] at hr
        cases hr
        exact hrun
      · rw [hqueue] at hq
        exact absurd heq (hnotQueued q hq)
      · rw [hactive] at hnone
        cases hnone
    · obtain ⟨r, hstep, hshows, hsome, hdone⟩ := htask.advance rfl modelId hty
      rw [hsettings] at hstep hshows
      have hrun' : Exec c.roundSettings.machine (row.request req.requestId) r.unscheduled
          (roundTasks req.requestId h ++ (s.completed modelId req info).1.shows) := by
        rw [← hshows]
        exact .step _ _ _ () hrun hstep
      refine ⟨fun q hq => ?_, fun q hq heq => ?_, fun hnone _ => ⟨_, ?_, hrun'⟩⟩
      · rw [hactive] at hq
        obtain ⟨r', hr', rfl⟩ := Option.map_eq_some_iff.mp hq
        obtain rfl := hsome r' hr'
        exact hrun'
      · rw [hqueue] at hq
        exact absurd heq (hnotQueued q hq)
      · rw [hactive, Option.map_eq_none_iff] at hnone
        exact hdone hnone
  · rw [roundTasks_finished, if_neg fun heq => hreq (heq.symm.trans heid), List.append_nil]
    rw [if_neg hreq] at hactive
    refine ⟨?_, ?_, ?_⟩
    · rw [hactive]
      exact O.active
    · rw [hqueue]
      exact O.queued
    · rw [hactive, hqueue]
      exact O.gone

/-- The rounds that are planned have the length of the request alone. -/
def PlansAlone (s : SpecDecodeScheduler) (e : List Event) : Prop :=
  ∀ (req : LangRequest) (hint : ℚ),
    .planned req.requestId (req.specRound + 1) hint
      ((s.planRound req).2.pendingPredictions.drop s.pendingPredictions.length) ∈ e →
    (s.pickDraftLength req).1 = s.roundSettings.draftLength req

/-- **Every move that plans so keeps the request on its course.** -/
theorem OnCourse.move (I : ProtocolOk s) (C : Configured c s) (hplans : s.PlansAlone e)
    (hsettings : s.roundSettings = c.roundSettings)
    (O : OnCourse c.roundSettings row id s (roundTasks id h)) (hrow : c.rows[id]? = some row)
    (hm : Move s s' e) : OnCourse c.roundSettings row id s' (roundTasks id (h ++ e)) := by
  cases hm with
  | minor s' hm =>
      rw [List.append_nil]
      refine ⟨?_, ?_, ?_⟩
      · rw [hm.active]
        exact O.active
      · rw [hm.queue]
        exact O.queued
      · rw [hm.active, hm.queue]
        exact O.gone
  | admitOne r rest hq =>
      rw [List.append_nil]
      exact O.admitOne C hrow hq
  | plan req hact hrun hphase =>
      have hactive := s.planRound_lookup req id
      obtain ⟨_, hqueue, _⟩ := s.planRound_frame req
      rw [roundTasks_planned]
      refine ⟨fun r hr => ?_, ?_, fun hnone => ?_⟩
      · rw [hactive] at hr
        split at hr
        · next hid =>
            cases hr
            have hstep := plannedRequest_advance hphase
              (hplans req _ (List.mem_singleton.mpr rfl))
            rw [hsettings] at hstep
            have hnext := Exec.step _ _ _ () (O.active req (hid ▸ hact)) hstep
            have hshows : c.roundSettings.shows req.unscheduled
                (s.plannedRequest req).unscheduled = [] := by
              unfold RoundSettings.shows
              rw [show req.unscheduled.specPhase = .draftRoundStart from hphase]
            change Exec _ _ _ (_ ++ c.roundSettings.shows _ _) at hnext
            rwa [hshows, List.append_nil] at hnext
        · exact O.active r hr
      · rw [hqueue]
        exact O.queued
      · rw [hqueue]
        rw [hactive] at hnone
        split at hnone
        · cases hnone
        · exact O.gone hnone
  | issue s₁ req req' model seqLength info built g hact hrun hprep hgen =>
      have L := hprep.launched hgen
      obtain ⟨v, hactive⟩ := L.active
      rw [roundTasks_issued]
      refine ⟨fun r hr => ?_, ?_, fun hnone => ?_⟩
      · rw [hactive] at hr
        split at hr
        · next hid =>
            cases hr
            exact O.active req (hid ▸ hact)
        · exact O.active r hr
      · rw [L.queue]
        exact O.queued
      · rw [L.queue]
        rw [hactive] at hnone
        split at hnone
        · cases hnone
        · exact O.gone hnone
  | finish modelId info req hinfo hid hact htask => exact O.finish I hsettings hid hact htask

end OnCourse

/-- The request has left: it is neither waiting nor active. -/
def Left (s : SpecDecodeScheduler) (id : Nat) : Prop :=
  s.activeRequests[id]? = none ∧ ∀ q ∈ s.requestQueue, q.requestId ≠ id

end SpecDecodeScheduler

/-! ## 4. Two runs with one request -/

section

open SpecDecodeScheduler

variable {c : Setup} {s : SpecDecodeScheduler} {h : List Event} {row : RequestRow} {id : Nat}

theorem Setup.start_roundSettings (hstart : c.start = some s) :
    s.roundSettings = c.roundSettings := by
  obtain ⟨base, _, rfl⟩ := Setup.start_eq hstart
  rfl

/-- **In every run the request is on its course.** -/
theorem Setup.Reach.onCourse (ht : c.targetModel.isSome = true) (hedc : ¬ c.asksEdc)
    (hrow : c.rows[id]? = some row) (hr : c.Reach s h) :
    OnCourse c.roundSettings row id s (roundTasks id h) := by
  obtain ⟨s₀, hstart, hexec⟩ := hr
  have F := Setup.start_fresh hstart
  have hrule : ∀ s h s' e, ProtocolOk s → Configured c s →
      s.roundSettings = c.roundSettings ∧ OnCourse c.roundSettings row id s (roundTasks id h) →
      Rule s s' e → s'.roundSettings = c.roundSettings ∧
        OnCourse c.roundSettings row id s' (roundTasks id (h ++ e)) := by
    rintro s h s' e I C ⟨hsettings, O⟩ hs
    have hplans : s.PlansAlone e := fun req _ _ =>
      pickDraftLength_unadvised req (mt C.consultsEdc_iff.mp hedc)
    exact ⟨hs.roundSettings.trans hsettings, O.move I C hplans hsettings hrow (I.move hs)⟩
  exact (exec_rules hrule (F.protocolOk ht) F.configured
    ⟨Setup.start_roundSettings hstart, F.onCourse hrow⟩ hexec).2.2.2

/-- On its course a request shows what it does alone; when it has left, all of it. -/
theorem SpecDecodeScheduler.OnCourse.alone {p : RoundSettings} {tasks : List RoundTask}
    (O : OnCourse p row id s tasks) :
    ∃ r, Exec p.machine (row.request id) r tasks ∧ (s.Left id → r.specPhase = .done) := by
  cases hact : s.activeRequests[id]? with
  | some r =>
      refine ⟨_, O.active r hact, fun hleft => ?_⟩
      rw [hleft.1] at hact
      cases hact
  | none =>
      by_cases hgone : ∀ q ∈ s.requestQueue, q.requestId ≠ id
      · obtain ⟨r, hdone, hexec⟩ := O.gone hact hgone
        exact ⟨r, hexec, fun _ => hdone⟩
      · have hwaits := hgone
        push Not at hwaits
        obtain ⟨q, hq, hid⟩ := hwaits
        rw [O.queued q hq hid]
        exact ⟨_, .start, fun hleft => absurd hleft.2 hgone⟩

/-- Without a target model there are no rounds. -/
theorem SpecDecodeScheduler.Fallback.roundTasks (N : Fallback c s h) (id : Nat) :
    roundTasks id h = [] := by
  refine List.flatMap_eq_nil_iff.mpr fun e he => ?_
  unfold LangStepEvent.shows
  rw [N.completions he]
  rfl

/-- **Without EDC, two runs with one request show the same rounds of it**: the same draft lengths,
    the same accepted lengths and the same committed lengths, as far as both go, and altogether when
    the request has left both. The two set-ups share the acceptance model and the bound on the draft
    length; the other requests, the arrival times, the latencies, the models, TVC, SSRC, VSKM, the
    PIM overlay and the order of the calls are those of each run. -/
theorem same_rounds {c₁ c₂ : Setup} {s₁ s₂ : SpecDecodeScheduler} {h₁ h₂ : List Event}
    {row₁ row₂ : RequestRow} (hsettings : c₁.roundSettings = c₂.roundSettings)
    (htarget : c₁.targetModel.isSome = c₂.targetModel.isSome)
    (hedc₁ : ¬ c₁.asksEdc) (hedc₂ : ¬ c₂.asksEdc)
    (hrow₁ : c₁.rows[id]? = some row₁) (hrow₂ : c₂.rows[id]? = some row₂)
    (hlengths : row₁.promptLength = row₂.promptLength ∧
      row₁.generationLength = row₂.generationLength ∧ row₁.cachedLength = row₂.cachedLength)
    (hr₁ : c₁.Reach s₁ h₁) (hr₂ : c₂.Reach s₂ h₂) :
    (roundTasks id h₁ <+: roundTasks id h₂ ∨ roundTasks id h₂ <+: roundTasks id h₁) ∧
      (s₁.Left id → s₂.Left id → roundTasks id h₁ = roundTasks id h₂) := by
  cases ht : c₁.targetModel.isSome with
  | false =>
      have hnone₁ := (hr₁.fallback ht).roundTasks id
      have hnone₂ := (hr₂.fallback (htarget ▸ ht)).roundTasks id
      rw [hnone₁, hnone₂]
      exact ⟨.inl List.prefix_rfl, fun _ _ => rfl⟩
  | true =>
      obtain ⟨r₁, hx₁, hdone₁⟩ := (hr₁.onCourse ht hedc₁ hrow₁).alone
      obtain ⟨r₂, hx₂, hdone₂⟩ := (hr₂.onCourse (htarget ▸ ht) hedc₂ hrow₂).alone
      have hrequest : row₂.request id = row₁.request id := by
        obtain ⟨hprompt, hgeneration, hcached⟩ := hlengths
        unfold RequestRow.request RequestRow.targetLength
        rw [hprompt, hgeneration, hcached]
      rw [← hsettings, hrequest] at hx₂
      obtain ⟨hpre, hequal⟩ := RoundSettings.same_tasks hx₁ hx₂
      exact ⟨hpre, fun hleft₁ hleft₂ => hequal (hdone₁ hleft₁) (hdone₂ hleft₂)⟩

/-- A request alone, with AHASD and TVC. -/
def aloneSetup : Setup :=
  let c := sampleSetup [⟨0, 4, 4, 1⟩] [(⟨0, 1⟩, ⟨3, 0, 3⟩), (⟨0, 2⟩, ⟨1, 0, 1⟩)]
  { c with config := { c.config with enableEdc := false } }

/-- The same request beside another, without AHASD and with SSRC and VSKM. -/
def sharedSetup : Setup :=
  let c := { aloneSetup with rows := [⟨0, 4, 4, 1⟩, ⟨0, 4, 9, 1⟩] }
  { c with config :=
    { c.config with enableAhasd := false, ssrcEnable := true, enableVskm := true } }

/-- The calls that issue and finish a model of each of two requests. -/
def finishingPairs (modelIds : List Nat) : List Act :=
  modelIds.flatMap fun id => [.cycle, .cycle, .finishModel (id + 1), .finishModel id]

/-- A run after which the first request has left, and what it showed of it. -/
theorem Setup.exists_left {c : Setup} {l : List Act} {p : List Event → Bool}
    (hp : (c.run l).any (fun r => (r.1.activeRequests[0]?).isNone && r.1.requestQueue.isEmpty &&
      p r.2) = true) : ∃ s h, c.Reach s h ∧ s.Left 0 ∧ p h = true := by
  obtain ⟨s, h, hr, hfacts⟩ := Setup.exists_reach hp
  rw [Bool.and_eq_true, Bool.and_eq_true, Option.isNone_iff_eq_none, List.isEmpty_iff] at hfacts
  refine ⟨s, h, hr, ⟨hfacts.1.1, fun q hq => ?_⟩, hfacts.2⟩
  rw [hfacts.1.2] at hq
  cases hq

/-- Two rounds, alone and beside another request. -/
theorem same_rounds_sample : ∃ s₁ h₁ s₂ h₂, aloneSetup.Reach s₁ h₁ ∧ sharedSetup.Reach s₂ h₂ ∧
    (roundTasks 0 h₁).length = 6 ∧ roundTasks 0 h₁ = roundTasks 0 h₂ := by
  obtain ⟨s₁, h₁, hr₁, hleft₁, htasks⟩ := Setup.exists_left (c := aloneSetup)
    (l := finishing [2, 3, 4, 5, 6, 7, 8]) (p := fun h => (roundTasks 0 h).length = 6)
    (by decide +kernel)
  obtain ⟨s₂, h₂, hr₂, hleft₂, _⟩ := Setup.exists_left (c := sharedSetup)
    (l := finishingPairs [4, 6, 8, 10, 12, 14, 16]) (p := fun _ => true) (by decide +kernel)
  have hrow₁ : aloneSetup.rows[0]? = some ⟨0, 4, 4, 1⟩ := rfl
  have hrow₂ : sharedSetup.rows[0]? = some ⟨0, 4, 4, 1⟩ := rfl
  have hsettings : aloneSetup.roundSettings = sharedSetup.roundSettings := rfl
  have hsame := same_rounds hsettings rfl (fun hedc => absurd hedc.2 Bool.false_ne_true)
    (fun hedc => absurd hedc.1 Bool.false_ne_true) hrow₁ hrow₂ ⟨rfl, rfl, rfl⟩ hr₁ hr₂
  exact ⟨s₁, h₁, s₂, h₂, hr₁, hr₂, of_decide_eq_true htasks, hsame.2 hleft₁ hleft₂⟩

end

end Ahasd
