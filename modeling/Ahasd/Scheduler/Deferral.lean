/-
  File:      Ahasd/Scheduler/Deferral.lean
  Subject:   THE DEFERRED ROUNDS OF A RUN: the scheduler's map, the coordinator's and the byte
             counters.

  A round is deferred when it is planned and retired when it is verified; the scheduler and the
  coordinator each remember it.

  * `planRound_deferral`, `finishTask_deferral`: what planning and finishing do to both;
  * `DeferralOk`: the two agree, and an active deferral is of the round its request is in;
    `DeferralOk.move`: every move keeps this;
  * `CycleWraps`, `Setup.Reach.books_step`: the one request a `cycle` can plan, and the effect of
    every call;
  * `deferral_books`: the books of the coordinator over every run.
-/
import Ahasd.Scheduler.Rounds

namespace Ahasd

open Std Transition OrderedMap

namespace SpecDecodeScheduler

/-! ## 1. Planning and finishing -/

/-- SSRC's answer for the round a request is about to start. -/
def decideDeferral (s : SpecDecodeScheduler) (req : LangRequest) (c : SSRCCoordinator) :
    Bool × SSRCCoordinator :=
  c.shouldDeferRound req.requestId (req.specRound + 1) (s.pickDraftLength req).1
    (computeEntropyHint (s.plannedRequest req))

/-- A disabled coordinator is not asked; it would have said no. -/
theorem deferRound_deferral (s : SpecDecodeScheduler) (req : LangRequest) :
    let decide := fun c : SSRCCoordinator => c.shouldDeferRound req.requestId req.specRound
      req.plannedDraftLength (computeEntropyHint req)
    (s.deferRound req).ssrc = s.ssrc.map (fun c => (decide c).2) ∧
      (s.deferRound req).ssrcDeferredRound =
        if s.ssrc.any (fun c => (decide c).1) then
          s.ssrcDeferredRound.insert req.requestId req.specRound
        else s.ssrcDeferredRound := by
  unfold deferRound
  dsimp only
  cases hc : s.ssrc with
  | none => exact ⟨hc, rfl⟩
  | some c =>
      dsimp only [Option.map_some, Option.any_some]
      split
      · exact ⟨rfl, rfl⟩
      · next hoff =>
          have hno : c.shouldDeferRound req.requestId req.specRound req.plannedDraftLength
              (computeEntropyHint req) = (false, c) := by
            unfold SSRCCoordinator.shouldDeferRound
            rw [if_pos]
            unfold SSRCCoordinator.isEnabled at hoff
            simpa using hoff
          simp only [hno]
          exact ⟨hc, rfl⟩

/-- **The deferrals after a planning.** -/
theorem planRound_deferral (s : SpecDecodeScheduler) (req : LangRequest) :
    (s.planRound req).2.ssrc = s.ssrc.map (fun c => (s.decideDeferral req c).2) ∧
      (s.planRound req).2.ssrcDeferredRound =
        if s.ssrc.any (fun c => (s.decideDeferral req c).1) then
          s.ssrcDeferredRound.insert req.requestId (req.specRound + 1)
        else s.ssrcDeferredRound := by
  unfold planRound
  dsimp only
  rw [pickDraftLength_eq]
  exact deferRound_deferral _ _

/-- The verification of the round retires a deferral. -/
def Retires (s : SpecDecodeScheduler) (requestId verifyRound : Nat) : Prop :=
  s.consultsSsrc = true ∧ s.ssrcDeferredRound[requestId]? = some verifyRound

instance (s : SpecDecodeScheduler) (requestId verifyRound : Nat) :
    Decidable (s.Retires requestId verifyRound) :=
  inferInstanceAs (Decidable (_ ∧ _))

theorem retireRound_deferral (s : SpecDecodeScheduler) (requestId verifyRound accepted k : Nat) :
    s.retireRound requestId verifyRound accepted k =
      if s.Retires requestId verifyRound then
        { s with
          ssrc := s.ssrc.map (·.onRoundVerified requestId verifyRound accepted k)
          ssrcDeferredRound := s.ssrcDeferredRound.erase requestId }
      else s := by
  unfold retireRound
  split
  · next hc =>
      rw [if_neg]
      rintro ⟨hon, _⟩
      unfold consultsSsrc at hon
      rw [hc] at hon
      cases hon
  · next c hc =>
      have hon : s.consultsSsrc = c.isEnabled := by
        unfold consultsSsrc
        rw [hc]
        rfl
      split
      · next h => rw [if_pos ⟨hon.trans h.1, h.2⟩, hc, Option.map_some]
      · next h => rw [if_neg fun hr : s.Retires _ _ => h ⟨hon ▸ hr.1, hr.2⟩]

/-- The deferrals after the bookkeeping of a verification. -/
theorem settleVerify_deferral (s : SpecDecodeScheduler) (after : LangRequest) (info : ModelMeta)
    (k accepted : Nat) :
    (s.settleVerify after info k accepted).ssrc =
        (if s.Retires after.requestId info.verifyRound then
          s.ssrc.map (·.onRoundVerified after.requestId info.verifyRound accepted k) else s.ssrc) ∧
      ∀ id : Nat, (s.settleVerify after info k accepted).ssrcDeferredRound[id]? =
        if id = after.requestId ∧ s.Retires after.requestId info.verifyRound then none
        else s.ssrcDeferredRound[id]? := by
  unfold settleVerify
  dsimp only
  generalize hstall : stallRequest _ after _ = s₂
  obtain ⟨stalls, h⟩ := stallRequest_frame _ after _
  rw [hstall] at h
  subst h
  rw [retireRound_deferral]
  split
  · next h =>
      have hs : s.Retires after.requestId info.verifyRound := h
      refine ⟨(if_pos hs).symm, fun id => (lookup_erase _ _ _).trans ?_⟩
      simp only [hs, and_true]
      rfl
  · next h =>
      have hs : ¬ s.Retires after.requestId info.verifyRound := h
      refine ⟨(if_neg hs).symm, fun id => ?_⟩
      simp only [hs, and_false, if_false]
      rfl

/-- A verification of the round with a deferral retires it. -/
def retiredBy (s : SpecDecodeScheduler) (req : LangRequest) (info : ModelMeta) : Prop :=
  info.taskType = .verify ∧ s.Retires req.requestId info.verifyRound

instance (s : SpecDecodeScheduler) (req : LangRequest) (info : ModelMeta) :
    Decidable (s.retiredBy req info) :=
  inferInstanceAs (Decidable (_ ∧ _))

/-- **The deferrals after a finished task.** -/
theorem finishTask_deferral (s : SpecDecodeScheduler) (req : LangRequest) (info : ModelMeta) :
    (s.finishTask req info).2.ssrc =
        (if s.retiredBy req info then
          s.ssrc.map (·.onRoundVerified req.requestId info.verifyRound (s.acceptedBy req info)
            (max 1 info.draftLengthAtIssue)) else s.ssrc) ∧
      ∀ id : Nat, (s.finishTask req info).2.ssrcDeferredRound[id]? =
        if id = req.requestId ∧ (s.retiredBy req info ∨ s.afterTask req info = none) then none
        else s.ssrcDeferredRound[id]? := by
  have hother : info.taskType ≠ .verify → ¬ s.retiredBy req info ∧ s.afterTask req info ≠ none := by
    intro hty
    refine ⟨fun h => hty h.1, ?_⟩
    unfold afterTask
    cases hcase : info.taskType with
    | verify => exact absurd hcase hty
    | _ => simp
  by_cases hty : info.taskType = .verify
  · have hretired : s.retiredBy req info ↔ s.Retires req.requestId info.verifyRound :=
      ⟨fun h => h.2, fun h => ⟨hty, h⟩⟩
    have hafter : s.afterTask req info = none ↔
        (s.applyVerifyResult req (s.acceptedBy req info)).specPhase = .done := by
      unfold afterTask
      rw [hty]
      dsimp only
      split
      · next h => exact iff_of_true rfl h
      · next h => exact iff_of_false (fun h => by cases h) h
    have hsettle := settleVerify_deferral (s.tallied req (max 1 info.draftLengthAtIssue))
      (s.applyVerifyResult req (s.acceptedBy req info)) info (max 1 info.draftLengthAtIssue)
      (s.acceptedBy req info)
    have htallied : Retires (s.tallied req (max 1 info.draftLengthAtIssue)) req.requestId
        info.verifyRound ↔ s.Retires req.requestId info.verifyRound := Iff.rfl
    rw [applyVerifyResult_requestId] at hsettle
    simp only [htallied, ← hretired] at hsettle
    obtain ⟨hssrc, hdeferred⟩ := hsettle
    unfold finishTask
    rw [hty]
    dsimp only
    rw [finishVerify_settle]
    dsimp only
    split
    · next hdone =>
        refine ⟨hssrc, fun id => (lookup_erase _ _ _).trans ?_⟩
        simp only [hafter, hdone, or_true, and_true]
        split
        · rfl
        · next hid => exact (hdeferred id).trans (if_neg fun h => hid h.1)
    · next hgo =>
        refine ⟨hssrc, fun id => (hdeferred id).trans ?_⟩
        simp only [hafter, hgo, or_false]
        rfl
  · obtain ⟨hretired, hafter⟩ := hother hty
    rw [if_neg hretired]
    simp only [hretired, hafter, or_self, and_false, if_false]
    unfold finishTask
    cases hcase : info.taskType with
    | verify => exact absurd hcase hty
    | preVerify =>
        dsimp only
        rw [finishPreVerify_eq]
        exact ⟨rfl, fun _ => rfl⟩
    | _ => exact ⟨rfl, fun _ => rfl⟩

theorem completed_deferral (s : SpecDecodeScheduler) (modelId : Nat) (req : LangRequest)
    (info : ModelMeta) :
    (s.completed modelId req info).2.ssrc =
        (if s.retiredBy req info then
          s.ssrc.map (·.onRoundVerified req.requestId info.verifyRound (s.acceptedBy req info)
            (max 1 info.draftLengthAtIssue)) else s.ssrc) ∧
      ∀ id : Nat, (s.completed modelId req info).2.ssrcDeferredRound[id]? =
        if id = req.requestId ∧ (s.retiredBy req info ∨ s.afterTask req info = none) then none
        else s.ssrcDeferredRound[id]? :=
  finishTask_deferral { s with modelMeta := s.modelMeta.erase modelId, lastFinishedEvents := [] }
    req info

/-! ## 2. The two maps agree -/

/-- The record of a deferred round fits the request: it is of the round the request is in. -/
structure RecordOk (bytesPerToken : Nat) (rec : RoundRecord) (r : LangRequest) : Prop where
  inRound : r.InRound
  round : r.specRound = rec.specRound
  planned : r.plannedDraftLength = rec.plannedDraftLength
  reserved : rec.reservedBytes = u64 (rec.plannedDraftLength * bytesPerToken)

/-- **The scheduler and the coordinator agree on the deferred rounds**, and every deferral is of the
    round its request is in. -/
structure DeferralOk (s : SpecDecodeScheduler) (c : SSRCCoordinator) : Prop where
  keys : ∀ id : Nat, (c.activeRequests[id]?).map RoundRecord.specRound = s.ssrcDeferredRound[id]?
  records : ∀ (id : Nat) (rec : RoundRecord), c.activeRequests[id]? = some rec →
    ∃ r : LangRequest, s.activeRequests[id]? = some r ∧
      RecordOk c.cfg.stateBytesPerToken rec r
  enabled : ∀ (id : Nat) (rec : RoundRecord), c.activeRequests[id]? = some rec →
    c.isEnabled = true

/-- A request in no round has no deferral. -/
theorem DeferralOk.idle {s : SpecDecodeScheduler} {c : SSRCCoordinator} (D : DeferralOk s c)
    {req : LangRequest} (hact : s.activeRequests[req.requestId]? = some req)
    (hout : ¬ req.InRound) : c.activeRequests[req.requestId]? = none := by
  cases hrec : c.activeRequests[req.requestId]? with
  | none => rfl
  | some rec =>
      obtain ⟨r, hr, hok⟩ := D.records _ _ hrec
      rw [hact, Option.some.injEq] at hr
      exact absurd (hr ▸ hok.inRound) hout

/-- The coordinator is asked when it has an active deferral, and it is retired by the verification
    of its round. -/
theorem DeferralOk.retires {s : SpecDecodeScheduler} {c : SSRCCoordinator} (D : DeferralOk s c)
    (hc : s.ssrc = some c) {id n : Nat} : s.Retires id n ↔
      ∃ rec, c.activeRequests[id]? = some rec ∧ rec.specRound = n := by
  have hkey := D.keys id
  unfold Retires consultsSsrc
  rw [hc, ← hkey, Option.any_some]
  constructor
  · rintro ⟨_, hround⟩
    exact Option.map_eq_some_iff.mp hround
  · rintro ⟨rec, hrec, hround⟩
    exact ⟨D.enabled _ _ hrec, by rw [hrec, Option.map_some, hround]⟩

theorem DeferralOk.plan {s : SpecDecodeScheduler} {c : SSRCCoordinator} (D : DeferralOk s c)
    (hc : s.ssrc = some c) {req : LangRequest}
    (hact : s.activeRequests[req.requestId]? = some req)
    (hphase : req.specPhase = .draftRoundStart) :
    DeferralOk (s.planRound req).2 (s.decideDeferral req c).2 := by
  have hactive := s.planRound_lookup req
  have hidle := D.idle hact (LangRequest.not_inRound (.inr hphase))
  obtain ⟨_, hdeferred⟩ := s.planRound_deferral req
  obtain ⟨hcfg, hcases⟩ := c.shouldDeferRound_active req.requestId (req.specRound + 1)
    (s.pickDraftLength req).1 (computeEntropyHint (s.plannedRequest req))
  change (s.decideDeferral req c).2.cfg = c.cfg at hcfg
  rw [hc, Option.any_some] at hdeferred
  have hon : (s.decideDeferral req c).2.isEnabled = c.isEnabled := by
    unfold SSRCCoordinator.isEnabled
    rw [hcfg]
  have hother : ∀ id : Nat, id ≠ req.requestId → ∀ rec, c.activeRequests[id]? = some rec →
      ∃ r : LangRequest, (s.planRound req).2.activeRequests[id]? = some r ∧
        RecordOk c.cfg.stateBytesPerToken rec r := by
    intro id hne rec hrec
    obtain ⟨r, hr, hok⟩ := D.records id rec hrec
    exact ⟨r, by rw [hactive, if_neg hne]; exact hr, hok⟩
  rcases hcases with ⟨hyes, henabled, hmap⟩ | ⟨hno, hmap⟩
  · change (s.decideDeferral req c).2.activeRequests = _ at hmap
    rw [show (s.decideDeferral req c).1 = true from hyes] at hdeferred
    refine ⟨fun id => ?_, fun id rec hrec => ?_, fun id rec _ => hon.trans henabled⟩
    · rw [hmap, hdeferred, if_pos rfl, lookup_insert, lookup_insert]
      split
      · rfl
      · exact D.keys id
    · rw [hmap, lookup_insert] at hrec
      rw [hcfg]
      split at hrec
      · next heq =>
          cases hrec
          exact ⟨s.plannedRequest req, by rw [hactive, if_pos heq], .inl rfl, rfl, rfl, rfl⟩
      · next hne => exact hother id hne rec hrec
  · change (s.decideDeferral req c).2.activeRequests = _ at hmap
    rw [show (s.decideDeferral req c).1 = false from hno] at hdeferred
    refine ⟨fun id => ?_, fun id rec hrec => ?_, fun id rec hrec => ?_⟩
    · rw [hmap, hdeferred]
      exact D.keys id
    · rw [hmap] at hrec
      rw [hcfg]
      refine hother id ?_ rec hrec
      rintro rfl
      rw [hidle] at hrec
      cases hrec
    · rw [hmap] at hrec
      exact hon.trans (D.enabled id rec hrec)

/-- A task that retires no deferral keeps the record of its request: it goes on with the round. -/
theorem DeferralOk.stays {s : SpecDecodeScheduler} {c : SSRCCoordinator} (D : DeferralOk s c)
    (hc : s.ssrc = some c) {info : ModelMeta} {req : LangRequest} {after : Option LangRequest}
    (hact : s.activeRequests[req.requestId]? = some req) (htask : TaskDone s req info after)
    (hnot : ¬ s.retiredBy req info) {rec : RoundRecord}
    (hrec : c.activeRequests[req.requestId]? = some rec) :
    ∃ r, after = some r ∧ RecordOk c.cfg.stateBytesPerToken rec r := by
  obtain ⟨q, hq, hok⟩ := D.records _ _ hrec
  rw [hact, Option.some.injEq] at hq
  subst hq
  -- the verification of the round would retire it
  have hverify : info.taskType = .verify → info.verifyRound = req.specRound → False :=
    fun hty hround => hnot ⟨hty, (D.retires hc).mpr ⟨rec, hrec, hok.round.symm.trans hround.symm⟩⟩
  cases htask with
  | prompt hty hphase hround =>
      exact absurd hok.inRound (LangRequest.not_inRound (.inl hphase))
  | draft hty hphase hround hpos hlength hlt =>
      exact ⟨_, rfl, s.draftedRequest_inRound req, hok.round, hok.planned, hok.reserved⟩
  | verify hty hphase hround => exact (hverify hty hround).elim
  | retire hty hphase hround => exact (hverify hty hround).elim
  | preVerify hty hphase hround hpos hdrafted hlength hdone => exact ⟨req, rfl, hok⟩

/-- **A completion keeps the agreement.** -/
theorem DeferralOk.finish {s : SpecDecodeScheduler} {c : SSRCCoordinator} (D : DeferralOk s c)
    (hc : s.ssrc = some c) {modelId : Nat} {info : ModelMeta} {req : LangRequest}
    (hid : info.requestId = req.requestId) (hact : s.activeRequests[req.requestId]? = some req)
    (htask : TaskDone s req info (s.afterTask req info)) :
    ∃ c', (s.completed modelId req info).2.ssrc = some c' ∧
      DeferralOk (s.completed modelId req info).2 c' := by
  have hactive := s.completed_activeRequests modelId req info hid hact
  obtain ⟨hssrc, hdeferred⟩ := s.completed_deferral modelId req info
  rw [hc] at hssrc
  have hother : ∀ id : Nat, id ≠ req.requestId → ∀ rec, c.activeRequests[id]? = some rec →
      ∃ r : LangRequest, (s.completed modelId req info).2.activeRequests[id]? = some r ∧
        RecordOk c.cfg.stateBytesPerToken rec r := by
    intro id hne rec hrec
    obtain ⟨r, hr, hok⟩ := D.records id rec hrec
    exact ⟨r, by rw [hactive, if_neg hne]; exact hr, hok⟩
  by_cases hretired : s.retiredBy req info
  · -- the verification of a deferred round
    obtain ⟨rec, hrec, hround⟩ := (D.retires hc).mp hretired.2
    obtain ⟨hcfg, hmap⟩ := SSRCCoordinator.onRoundVerified_active hrec (D.enabled _ _ hrec)
      (s.acceptedBy req info) (max 1 info.draftLengthAtIssue)
    rw [if_pos hretired, Option.map_some, ← hround] at hssrc
    refine ⟨_, hssrc, fun id => ?_, fun id rec' hrec' => ?_, fun id rec' hrec' => ?_⟩
    · rw [hmap, hdeferred, lookup_erase]
      by_cases heq : id = req.requestId
      · rw [if_pos heq, if_pos ⟨heq, .inl hretired⟩]
        rfl
      · rw [if_neg heq, if_neg fun h => heq h.1]
        exact D.keys id
    · rw [hmap, lookup_erase] at hrec'
      rw [hcfg]
      split at hrec'
      · cases hrec'
      · next hne => exact hother id hne rec' hrec'
    · unfold SSRCCoordinator.isEnabled
      rw [hcfg]
      exact D.enabled _ _ hrec
  · rw [if_neg hretired] at hssrc
    refine ⟨c, hssrc, fun id => ?_, fun id rec hrec => ?_, D.enabled⟩
    · rw [hdeferred]
      split
      · next h =>
          obtain ⟨rfl, h | hnone⟩ := h
          · exact absurd h hretired
          · cases hrec : c.activeRequests[req.requestId]? with
            | none => rfl
            | some rec =>
                obtain ⟨r, hr, _⟩ := D.stays hc hact htask hretired hrec
                rw [hnone] at hr
                cases hr
      · exact D.keys id
    · by_cases heq : id = req.requestId
      · subst heq
        obtain ⟨r, hr, hok⟩ := D.stays hc hact htask hretired hrec
        refine ⟨{ r with running := false }, ?_, hok.inRound, hok.round, hok.planned, hok.reserved⟩
        rw [hactive, if_pos rfl, hr]
        rfl
      · exact hother id heq rec hrec

/-- **Every move keeps the agreement.** -/
theorem DeferralOk.move {s s' : SpecDecodeScheduler} {e : List Event} (I : ProtocolOk s)
    (h : ∃ c, s.ssrc = some c ∧ DeferralOk s c) (hm : Move s s' e) :
    ∃ c, s'.ssrc = some c ∧ DeferralOk s' c := by
  obtain ⟨c, hc, D⟩ := h
  cases hm with
  | minor s' hm =>
      obtain ⟨g, hg, hsame⟩ := hm.ssrc
      obtain ⟨hcfg, hactive, _⟩ := hsame c
      rw [hc] at hg
      refine ⟨g c, hg, fun id => ?_, fun id rec hrec => ?_, fun id rec hrec => ?_⟩
      · rw [hactive, hm.deferred]
        exact D.keys id
      · rw [hactive] at hrec
        rw [hm.active, hcfg]
        exact D.records id rec hrec
      · rw [hactive] at hrec
        unfold SSRCCoordinator.isEnabled
        rw [hcfg]
        exact D.enabled id rec hrec
  | admitOne r rest hq =>
      refine ⟨c, hc, D.keys, fun id rec hrec => ?_, D.enabled⟩
      obtain ⟨q, hact, hok⟩ := D.records id rec hrec
      refine ⟨q, ?_, hok⟩
      rw [s.admit_lookup r rest, if_neg]
      · exact hact
      · intro heq
        rw [heq, I.admit_fresh hq] at hact
        cases hact
  | plan req hact hrun hphase =>
      refine ⟨(s.decideDeferral req c).2, ?_, D.plan hc hact hphase⟩
      rw [(s.planRound_deferral req).1, hc]
      rfl
  | issue s₁ req req' model seqLength info built g hact hrun hprep hgen =>
      have L := hprep.launched hgen
      obtain ⟨v, hactive⟩ := L.active
      have hframe : s₁.ssrc = s.ssrc ∧ s₁.ssrcDeferredRound = s.ssrcDeferredRound := by
        rw [hprep.frame]
        exact ⟨rfl, rfl⟩
      refine ⟨c, hframe.1.trans hc, fun id => ?_, fun id rec hrec => ?_, D.enabled⟩
      · refine (D.keys id).trans ?_
        rw [← hframe.2]
        rfl
      · obtain ⟨q, hq, hok⟩ := D.records id rec hrec
        rw [hactive]
        split
        · next heq =>
            rw [heq, hact, Option.some.injEq] at hq
            subst hq
            exact ⟨_, rfl, hok.inRound, hok.round, hok.planned, hok.reserved⟩
        · exact ⟨q, hq, hok⟩
  | finish modelId info req hinfo hid hact htask => exact D.finish hc hid hact htask

/-! ## 3. What a call does to the coordinator -/

/-- Every phase but `DONE` issues a model. -/
theorem issuePhase_issues {s s' : SpecDecodeScheduler} {req : LangRequest} {issued : Bool}
    (hphase : req.specPhase ≠ .done) (h : s.issuePhase req = some (s', issued)) :
    issued = true := by
  rcases issuePhase_cases h with ⟨hdone, _, _⟩ | ⟨_, _, hissued, _⟩ | ⟨_, hissued, _⟩
  · exact absurd hdone hphase
  · exact hissued
  · exact hissued

/-- **The issue loop serves the first request that can issue**, and no other. -/
theorem issueLoop_eq (s : SpecDecodeScheduler) {entries : List (Nat × LangRequest)}
    (hphases : ∀ p ∈ entries, p.2.specPhase ≠ .done) :
    issueLoop entries s = match entries.find? fun p => s.canIssue p.2 with
      | none => some s
      | some p => ((s.unstall p.2).issuePhase p.2).map Prod.fst := by
  induction entries with
  | nil => rfl
  | cons entry rest ih =>
      obtain ⟨id, req⟩ := entry
      unfold issueLoop
      rw [tryIssueOneTask_eq, List.find?_cons]
      cases hcan : s.canIssue req with
      | false => exact ih fun p hp => hphases p (List.mem_cons_of_mem _ hp)
      | true =>
          dsimp only
          rw [if_pos rfl]
          cases hissue : (s.unstall req).issuePhase req with
          | none => rfl
          | some r =>
              obtain ⟨s', issued⟩ := r
              obtain rfl := issuePhase_issues (hphases _ List.mem_cons_self) hissue
              rfl

/-- Issuing a task leaves the coordinator alone. -/
theorem IssuesTask.ssrc {s s' : SpecDecodeScheduler} {req : LangRequest}
    (h : IssuesTask s req s') : s'.ssrc = s.ssrc := by
  obtain ⟨s₁, req', model, seqLength, info, hprep, hlaunch⟩ := h
  obtain ⟨r, _, rfl⟩ := Option.map_eq_some_iff.mp hlaunch
  rw [hprep.frame]
  rfl

/-- **Only a planning consults the coordinator.** -/
theorem issuePhase_ssrc {s s' : SpecDecodeScheduler} {req : LangRequest} {issued : Bool}
    (h : s.issuePhase req = some (s', issued)) :
    s'.ssrc = if req.specPhase = .draftRoundStart then
      s.ssrc.map (fun c => (s.decideDeferral req c).2) else s.ssrc := by
  rcases issuePhase_cases h with ⟨hdone, _, rfl⟩ | ⟨_, hstart, _, htask⟩ | ⟨hstart, _, htask⟩
  · rw [if_neg (by rw [hdone]; decide)]
  · rw [if_neg hstart]
    exact htask.ssrc
  · rw [if_pos hstart]
    exact htask.ssrc.trans (s.planRound_deferral req).1

/-- The request `cycle` plans a round of: the first one that can issue, when it is at the start of a
    round. -/
def planningRequest (s : SpecDecodeScheduler) : Option LangRequest :=
  if s.targetModel.isSome then
    (s.tickAndAdmit.activeRequests.toList.find? fun p => s.tickAndAdmit.canIssue p.2).bind
      fun p => if p.2.specPhase = .draftRoundStart then some p.2 else none
  else none

theorem unstall_decideDeferral (s : SpecDecodeScheduler) (req req' : LangRequest)
    (c : SSRCCoordinator) : (s.unstall req).decideDeferral req' c = s.decideDeferral req' c := by
  unfold unstall
  split
  · rfl
  · unfold decideDeferral plannedRequest pickDraftLength
    dsimp only
    cases s.ahasd with
    | none => rfl
    | some a =>
        dsimp only
        split <;> rfl

/-- **The coordinator after a `cycle`**: it was consulted for the planned request, if there is
    one. -/
theorem cycle_ssrc {s s' : SpecDecodeScheduler} (I : ProtocolOk s) (h : s.cycle = some s') :
    s'.ssrc = match s.planningRequest with
      | none => s.ssrc
      | some req => s.ssrc.map (fun c => (s.tickAndAdmit.decideDeferral req c).2) := by
  obtain ⟨I₁, hentries, hloop⟩ := cycle_issueLoop I h
  have hssrc : s.tickAndAdmit.ssrc = s.ssrc := by
    unfold tickAndAdmit
    dsimp only
    split <;> rfl
  have hphases : ∀ p ∈ s.tickAndAdmit.activeRequests.toList, p.2.specPhase ≠ .done := by
    intro p hp hdone
    have hphase := (I₁.requests p.1 p.2 (hentries p hp)).phase
    unfold LangRequest.PhaseFacts at hphase
    rw [hdone] at hphase
    exact hphase
  rw [issueLoop_eq _ hphases] at hloop
  unfold planningRequest
  rw [if_pos I.target]
  cases hfind : s.tickAndAdmit.activeRequests.toList.find?
      (fun p => s.tickAndAdmit.canIssue p.2) with
  | none =>
      rw [hfind] at hloop
      cases hloop
      exact hssrc
  | some p =>
      rw [hfind] at hloop
      obtain ⟨⟨t, issued⟩, hissue, heq⟩ := Option.map_eq_some_iff.mp hloop
      cases heq
      have hunstall : (s.tickAndAdmit.unstall p.2).ssrc = s.ssrc := by
        unfold unstall
        split <;> exact hssrc
      have hnext := issuePhase_ssrc hissue
      rw [hunstall] at hnext
      simp only [unstall_decideDeferral] at hnext
      rw [Option.bind_some]
      by_cases hplan : p.2.specPhase = .draftRoundStart
      · rw [if_pos hplan] at hnext ⊢
        exact hnext
      · rw [if_neg hplan] at hnext ⊢
        exact hnext

/-- The deferred rounds that were verified, with what the verifications accepted: of each verified
    request, the record the coordinator had. -/
def retirements (s : SpecDecodeScheduler) (events : List Event) :
    List SSRCCoordinator.Retirement :=
  events.flatMap fun
    | .finished e =>
        if e.taskType = .verify then
          ((s.ssrc.bind fun c => c.activeRequests[e.requestId]?).map fun rec =>
            (⟨rec, e.acceptedLength⟩ : SSRCCoordinator.Retirement)).toList
        else []
    | _ => []

/-- The scheduler, watched for retirements. -/
def retiring : Machine SpecDecodeScheduler Act SSRCCoordinator.Retirement where
  step := step
  obs := fun s a s' => retirements s (observe s a s')

/-- A call that finishes no task retires nothing. -/
theorem retirements_nil {s : SpecDecodeScheduler} {events : List Event}
    (h : ∀ e, .finished e ∈ events → e.taskType ≠ .verify) : retirements s events = [] := by
  refine List.flatMap_eq_nil_iff.mpr fun x hx => ?_
  cases x with
  | finished e => exact if_neg (h e hx)
  | issued built info => rfl
  | planned id n hint preds => rfl

theorem retirements_finished (s : SpecDecodeScheduler) (e : LangStepEvent) :
    retirements s [.finished e] = if e.taskType = .verify then
      ((s.ssrc.bind fun c => c.activeRequests[e.requestId]?).map fun rec =>
        (⟨rec, e.acceptedLength⟩ : SSRCCoordinator.Retirement)).toList else [] :=
  List.flatMap_singleton _ _

/-- The verification of a round is of the round its request is in, and of all its drafts. -/
theorem TaskDone.verified {s : SpecDecodeScheduler} {req : LangRequest} {info : ModelMeta}
    {after : Option LangRequest} (htask : TaskDone s req info after)
    (hty : info.taskType = .verify) : info.verifyRound = req.specRound ∧
      info.draftLengthAtIssue = req.plannedDraftLength ∧ 1 ≤ req.plannedDraftLength := by
  cases htask with
  | prompt hty' => rw [hty'] at hty; cases hty
  | draft hty' => rw [hty'] at hty; cases hty
  | preVerify hty' => rw [hty'] at hty; cases hty
  | verify _ hphase hround hpos hlength hdrafted hplanned => exact ⟨hround, hlength, hplanned⟩
  | retire _ hphase hround hpos hlength hdrafted hplanned => exact ⟨hround, hlength, hplanned⟩

/-- **A completion keeps the books**: a verification retires the deferral of its round. -/
theorem DeferralOk.books_finish {s : SpecDecodeScheduler} {c : SSRCCoordinator}
    (D : DeferralOk s c) (hc : s.ssrc = some c) {retired : List SSRCCoordinator.Retirement}
    (B : SSRCCoordinator.Books c retired) {modelId : Nat} {info : ModelMeta} {req : LangRequest}
    (hact : s.activeRequests[req.requestId]? = some req)
    (htask : TaskDone s req info (s.afterTask req info)) :
    ∃ c', (s.completed modelId req info).2.ssrc = some c' ∧ SSRCCoordinator.Books c'
      (retired ++ retirements s [.finished (s.completed modelId req info).1]) := by
  obtain ⟨hssrc, _⟩ := s.completed_deferral modelId req info
  obtain ⟨heid, hety, _, _, _, haccepted, _⟩ := s.completed_event modelId req info
  rw [hc] at hssrc
  rw [retirements_finished, hety, heid, hc, Option.bind_some]
  by_cases hty : info.taskType = .verify
  · obtain ⟨hround, hlength, hplanned⟩ := htask.verified hty
    rw [if_pos hty, haccepted (.inl hty)]
    cases hrec : c.activeRequests[req.requestId]? with
    | none =>
        have hnot : ¬ s.retiredBy req info := by
          intro hretired
          obtain ⟨rec, hrec', _⟩ := (D.retires hc).mp hretired.2
          rw [hrec] at hrec'
          cases hrec'
        rw [if_neg hnot] at hssrc
        exact ⟨c, hssrc, by rw [Option.map_none, Option.toList_none, List.append_nil]; exact B⟩
    | some rec =>
        obtain ⟨q, hq, hok⟩ := D.records _ _ hrec
        rw [hact, Option.some.injEq] at hq
        subst hq
        have hrecord : rec.specRound = info.verifyRound := hok.round.symm.trans hround.symm
        have hretired : s.retiredBy req info := ⟨hty, (D.retires hc).mpr ⟨rec, hrec, hrecord⟩⟩
        have hle := s.acceptedBy_le req info
        have hk : max 1 (max 1 info.draftLengthAtIssue) = rec.plannedDraftLength := by
          rw [← hok.planned]
          omega
        rw [if_pos hretired, Option.map_some, ← hrecord] at hssrc
        exact ⟨_, hssrc, B.retire hrec (D.enabled _ _ hrec) hk hok.reserved (by omega)⟩
  · rw [if_neg fun hretired => hty hretired.1] at hssrc
    rw [if_neg hty, List.append_nil]
    exact ⟨c, hssrc, B⟩

/-- **The `cycle` reserves past 64 bits**: SSRC would defer the round it plans, and the reservation
    takes the resident bytes over. -/
def CycleWraps (s : SpecDecodeScheduler) : Prop :=
  match s.planningRequest, s.ssrc with
  | some req, some c =>
      c.ReservationWraps (s.tickAndAdmit.pickDraftLength req).1
        (computeEntropyHint (s.tickAndAdmit.plannedRequest req))
  | _, _ => False

instance (s : SpecDecodeScheduler) : Decidable s.CycleWraps := by
  unfold CycleWraps
  split <;> infer_instance

/-- The planned request is active, and in no round. -/
theorem planningRequest_active {s : SpecDecodeScheduler} (I : ProtocolOk s.tickAndAdmit)
    {req : LangRequest} (h : s.planningRequest = some req) :
    s.tickAndAdmit.activeRequests[req.requestId]? = some req ∧
      req.specPhase = .draftRoundStart := by
  unfold planningRequest at h
  split at h
  · obtain ⟨p, hfind, hplan⟩ := Option.bind_eq_some_iff.mp h
    split at hplan
    · next hphase =>
        cases hplan
        have hact := TreeMap.mem_toList_iff_getElem?_eq_some.mp (List.mem_of_find?_eq_some hfind)
        have hkey := (I.requests _ _ hact).keyed
        exact ⟨by rw [hkey]; exact hact, hphase⟩
    · cases hplan
  · cases h

end SpecDecodeScheduler

/-! ## 4. Every run -/

section

open SpecDecodeScheduler SSRCCoordinator

variable {c : Setup} {s : SpecDecodeScheduler} {h : List Event}

theorem SpecDecodeScheduler.Fresh.deferralOk (F : Fresh c s) :
    DeferralOk s (.new c.config.toSSRCConfig) := by
  refine ⟨fun id => ?_, fun id rec hrec => ?_, fun id rec hrec => ?_⟩
  · rw [F.deferred, lookup_empty,
      show (SSRCCoordinator.new c.config.toSSRCConfig).activeRequests = ∅ from rfl, lookup_empty]
    rfl
  · rw [show (SSRCCoordinator.new c.config.toSSRCConfig).activeRequests = ∅ from rfl,
      lookup_empty] at hrec
    cases hrec
  · rw [show (SSRCCoordinator.new c.config.toSSRCConfig).activeRequests = ∅ from rfl,
      lookup_empty] at hrec
    cases hrec

/-- The deferrals of every reachable state. -/
theorem Setup.Reach.deferrals (hr : c.Reach s h) : ∃ coord, s.ssrc = some coord ∧
    DeferralOk s coord := by
  cases ht : c.targetModel.isSome with
  | true =>
      exact hr.induct ht (P := fun s _ => ∃ coord, s.ssrc = some coord ∧ DeferralOk s coord)
        (fun s₀ F => ⟨_, F.ssrc, F.deferralOk⟩) fun s h s' e I _ hP hm => DeferralOk.move I hP hm
  | false =>
      -- without a target model nothing is ever deferred
      obtain ⟨s₀, hstart, hexec⟩ := hr
      have F := Setup.start_fresh hstart
      have hidle : c.Reach s h ∧ ∃ coord, s.ssrc = some coord ∧ coord.activeRequests = ∅ ∧
          s.ssrcDeferredRound = ∅ := by
        refine hexec.invariant (P := fun s h => c.Reach s h ∧ ∃ coord, s.ssrc = some coord ∧
            coord.activeRequests = ∅ ∧ s.ssrcDeferredRound = ∅)
          ⟨⟨s₀, hstart, .start⟩, _, F.ssrc, rfl, F.deferred⟩ ?_
        rintro s h a s' ⟨hr, coord, hc, hactive, hdeferred⟩ hs
        obtain ⟨_, hsame, g, hg, hrounds⟩ := (hr.fallback ht).untouched hs
        rw [hc] at hg
        exact ⟨hr.exec (.one hs), g coord, hg, (hrounds coord).active.trans hactive,
          hsame.trans hdeferred⟩
      obtain ⟨_, coord, hc, hactive, hdeferred⟩ := hidle
      refine ⟨coord, hc, fun id => ?_, fun id rec hrec => ?_, fun id rec hrec => ?_⟩
      · rw [hactive, hdeferred, lookup_empty, lookup_empty]
        rfl
      · rw [hactive, lookup_empty] at hrec
        cases hrec
      · rw [hactive, lookup_empty] at hrec
        cases hrec

/-- **One call and the books**: they are kept unless the call is a `cycle` that reserves past 64
    bits, and then they are broken. -/
theorem Setup.Reach.books_step (hr : c.Reach s h) {a : Act} {s' : SpecDecodeScheduler}
    (hs : machine.step s a = some s') {coord : SSRCCoordinator} (hc : s.ssrc = some coord)
    {retired : List Retirement} (B : Books coord retired) :
    ∃ coord', s'.ssrc = some coord' ∧
      (Books coord' (retired ++ retirements s (machine.obs s a s')) ↔
        ¬ (a = .cycle ∧ s.CycleWraps)) := by
  -- the memory side notes bypassed writes
  have hnoted : (∃ g : SSRCCoordinator → SSRCCoordinator, s'.ssrc = s.ssrc.map g ∧
      ∀ c, SameRounds c (g c)) → retirements s (machine.obs s a s') = [] →
      ¬ (a = .cycle ∧ s.CycleWraps) → ∃ coord', s'.ssrc = some coord' ∧
        (Books coord' (retired ++ retirements s (machine.obs s a s')) ↔
          ¬ (a = .cycle ∧ s.CycleWraps)) := by
    rintro ⟨g, hg, hsame⟩ hnil hno
    rw [hc] at hg
    rw [hnil, List.append_nil]
    exact ⟨g coord, hg, iff_of_true (B.sameRounds (hsame coord)) hno⟩
  cases ht : c.targetModel.isSome with
  | false =>
      have N := hr.fallback ht
      refine hnoted (N.untouched hs).2.2 (retirements_nil fun e he hty => ?_) ?_
      · have hstep := (hr.exec (.one hs)).fallback ht
        obtain ⟨ev, hev, hauto⟩ := hstep.autoreg _ (List.mem_append_right h he)
        cases hev
        rw [hauto] at hty
        cases hty
      · rintro ⟨_, hwraps⟩
        unfold CycleWraps planningRequest at hwraps
        rw [N.target] at hwraps
        exact hwraps
  | true =>
      obtain ⟨I, C⟩ := hr.inv ht
      obtain ⟨coord', hc', D⟩ := hr.deferrals
      rw [hc, Option.some.injEq] at hc'
      subst hc'
      rcases step_completes (c := c) (P := fun _ => True) (fun _ _ _ _ _ _ _ _ => trivial) I C
          trivial hs with
        ⟨modelId, info, req, rfl, hinfo, hid, hact, rfl, hobs⟩ | ⟨_, hnone⟩
      · rw [hobs]
        obtain ⟨coord', hc', B'⟩ := D.books_finish hc B hact (I.taskDone hinfo hid hact)
        exact ⟨coord', hc', iff_of_true B' fun h => by cases h.1⟩
      · have hnil : retirements s (machine.obs s a s') = [] :=
          retirements_nil fun e he => absurd he (hnone e)
        by_cases hcycle : a = .cycle
        · subst hcycle
          have hssrc := cycle_ssrc I hs
          have hadmitted : ∃ coord, s.tickAndAdmit.ssrc = some coord ∧
              DeferralOk s.tickAndAdmit coord :=
            (chain_moves (c := c) (h := [])
              (P := fun s _ => ∃ coord, s.ssrc = some coord ∧ DeferralOk s coord)
              (fun s h s' e I _ hP hm => DeferralOk.move I hP hm) I C ⟨coord, hc, D⟩
              s.tickAndAdmit_chain).2.2
          obtain ⟨I₁, _⟩ := chain_moves (c := c) (h := []) (P := fun _ _ => True)
            (fun _ _ _ _ _ _ _ _ => trivial) I C trivial s.tickAndAdmit_chain
          rw [hnil, List.append_nil]
          unfold CycleWraps
          cases hplan : s.planningRequest with
          | none =>
              rw [hplan] at hssrc
              exact ⟨coord, hssrc.trans hc, iff_of_true B fun h => h.2⟩
          | some req =>
              obtain ⟨hact, hphase⟩ := planningRequest_active I₁ hplan
              rw [hplan, hc] at hssrc
              have hsame : s.tickAndAdmit.ssrc = s.ssrc := by
                unfold tickAndAdmit
                dsimp only
                split <;> rfl
              obtain ⟨coord', hc', D₁⟩ := hadmitted
              rw [hsame, hc, Option.some.injEq] at hc'
              subst hc'
              have hnew := D₁.idle hact (LangRequest.not_inRound (.inr hphase))
              refine ⟨_, hssrc, ?_⟩
              rw [hc]
              dsimp only
              constructor
              · rintro B' ⟨_, hwraps⟩
                exact B.wraps hnew hwraps _ retired B'
              · intro hno
                exact B.defer hnew (fun hwraps => hno ⟨rfl, hwraps⟩) _
        · refine hnoted (step_untouched hs hcycle fun modelId ha => ?_).2.2 hnil fun h =>
            hcycle h.1
          subst ha
          cases hinfo : s.modelMeta[modelId]? with
          | none => rfl
          | some info =>
              obtain ⟨req, _, _, _, hobs⟩ := step_finish I hinfo hs
              rw [hobs] at hnone
              exact absurd List.mem_cons_self (hnone _)

/-- The rounds retired by a list of calls. -/
def Setup.retired (c : Setup) (as : List Act) : List Retirement :=
  ((c.start.bind (retiring.run as)).map Prod.snd).getD []

/-- One call more adds the rounds it retires. -/
theorem Setup.retired_snoc {as : List Act} (hr : c.run as = some (s, h)) {a : Act}
    {s' : SpecDecodeScheduler} (hs : machine.step s a = some s') :
    c.retired (as ++ [a]) = c.retired as ++ retirements s (machine.obs s a s') := by
  obtain ⟨s₀, hstart, hrun⟩ := Option.bind_eq_some_iff.mp hr
  have hstates := machine.run_states retiring rfl as s₀
  rw [hrun] at hstates
  obtain ⟨⟨t, rs⟩, hrs, rfl⟩ := Option.map_eq_some_iff.mp hstates
  have hstep : retiring.step t a = some s' := hs
  unfold Setup.retired
  rw [hstart, Option.bind_some, Option.bind_some, retiring.run_snoc, hrs, Option.bind_some, hstep]
  rfl

/-- **The books over a run**: in every state the calls pass through, the resident bytes are those of
    the active deferrals and within the limit, the scheduler's deferred rounds are the
    coordinator's, every deferred round is settled or active, and the saved and replayed bytes are
    those of the retired rounds; exactly when no `cycle` reserves past 64 bits. -/
theorem deferral_books {as : List Act} (hrun : (c.run as).isSome = true) :
    (∀ bs, bs <+: as → ∀ s h, c.run bs = some (s, h) → ∃ coord, s.ssrc = some coord ∧
      Books coord (c.retired bs) ∧
      ∀ id : Nat, (coord.activeRequests[id]?).map RoundRecord.specRound =
        s.ssrcDeferredRound[id]?) ↔
      ∀ bs, bs ++ [.cycle] <+: as → ∀ s h, c.run bs = some (s, h) → ¬ s.CycleWraps := by
  -- the step from one state of the run to the next
  have hnext : ∀ {bs a s h s' h' coord}, c.run bs = some (s, h) →
      c.run (bs ++ [a]) = some (s', h') → s.ssrc = some coord → Books coord (c.retired bs) →
      ∃ coord', s'.ssrc = some coord' ∧
        (Books coord' (c.retired (bs ++ [a])) ↔ ¬ (a = .cycle ∧ s.CycleWraps)) := by
    intro bs a s h s' h' coord hb hb' hc B
    rw [c.run_snoc, hb, Option.bind_some] at hb'
    obtain ⟨t, hs, heq⟩ := Option.map_eq_some_iff.mp hb'
    cases heq
    rw [Setup.retired_snoc hb hs]
    exact (Setup.reach_of_run hb).books_step hs hc B
  constructor
  · intro hbooks bs hba s h hb hwraps
    obtain ⟨s', h', hb'⟩ := Setup.run_prefix hba hrun
    have hbs : bs <+: as := (List.prefix_append bs [.cycle]).trans hba
    obtain ⟨coord, hc, B, _⟩ := hbooks bs hbs s h hb
    obtain ⟨coord', hc', hiff⟩ := hnext hb hb' hc B
    obtain ⟨coord₁, hc₁, B', _⟩ := hbooks _ hba s' h' hb'
    rw [hc', Option.some.injEq] at hc₁
    exact hiff.mp (hc₁ ▸ B') ⟨rfl, hwraps⟩
  · intro hno bs hbs s h hb
    have hbooks : ∃ coord, s.ssrc = some coord ∧ Books coord (c.retired bs) := by
      induction bs using List.reverseRecOn generalizing s h with
      | nil =>
          obtain ⟨s₀, hstart, heq⟩ := Option.bind_eq_some_iff.mp hb
          cases heq
          refine ⟨_, (Setup.start_fresh hstart).ssrc, ?_⟩
          unfold Setup.retired
          rw [hstart]
          exact .new _
      | append_singleton bs a ih =>
          have hprefix : bs <+: as := (List.prefix_append bs [a]).trans hbs
          obtain ⟨t, h', hb₁⟩ := Setup.run_prefix hprefix hrun
          obtain ⟨coord, hc, B⟩ := ih hprefix t h' hb₁
          obtain ⟨coord', hc', hiff⟩ := hnext hb₁ hb hc B
          refine ⟨coord', hc', hiff.mpr ?_⟩
          rintro ⟨rfl, hwraps⟩
          exact hno bs hbs t h' hb₁ hwraps
    obtain ⟨coord, hc, B⟩ := hbooks
    obtain ⟨coord', hc', D⟩ := (Setup.reach_of_run hb).deferrals
    rw [hc, Option.some.injEq] at hc'
    subst hc'
    exact ⟨coord, hc, B, D.keys⟩

/-- Every round deferred, for the rows of the request trace. -/
def deferringSetup (rows : List RequestRow) (acceptRows : List (TraceKey × TraceRow)) : Setup :=
  let base := sampleSetup rows acceptRows
  { base with config := { base.config with
      ssrcEnable := true
      ssrcConfidenceThreshold := 0 } }

/-- One deferred round of three drafts, of which the verification accepts two. -/
theorem deferral_books_sample : ∃ s h coord,
    (deferringSetup [⟨0, 4, 6, 1⟩] [(⟨0, 1⟩, ⟨3, 0, 2⟩)]).run (finishing [2, 3, 4, 5, 6]) =
      some (s, h) ∧ s.ssrc = some coord ∧ coord.stats.totalRoundsDeferred = 1 ∧
      Books coord ((deferringSetup [⟨0, 4, 6, 1⟩] [(⟨0, 1⟩, ⟨3, 0, 2⟩)]).retired
        (finishing [2, 3, 4, 5, 6])) := by
  have hrun : ((deferringSetup [⟨0, 4, 6, 1⟩] [(⟨0, 1⟩, ⟨3, 0, 2⟩)]).run
      (finishing [2, 3, 4, 5, 6])).any (fun r => r.1.ssrc.any fun coord =>
        decide (coord.stats.totalRoundsDeferred = 1)) = true := by decide +kernel
  have hfits : ∀ n ≤ 10, ((deferringSetup [⟨0, 4, 6, 1⟩] [(⟨0, 1⟩, ⟨3, 0, 2⟩)]).run
      ((finishing [2, 3, 4, 5, 6]).take n)).all (fun r => decide ¬ r.1.CycleWraps) = true := by
    decide +kernel
  obtain ⟨⟨s, h⟩, hr, hdeferred⟩ := (Option.any_eq_true _ _).mp hrun
  obtain ⟨coord, hc, hone⟩ := (Option.any_eq_true _ _).mp hdeferred
  have hbooks := (deferral_books (by rw [hr]; rfl)).mpr (fun bs hbs t h' hb => by
    have hprefix := (List.prefix_append bs [.cycle]).trans hbs
    have hle : bs.length ≤ 10 := hprefix.length_le
    have hall := hfits bs.length hle
    rw [← List.prefix_iff_eq_take.mp hprefix, hb] at hall
    exact of_decide_eq_true hall) _ List.prefix_rfl s h hr
  obtain ⟨coord', hc', B, _⟩ := hbooks
  rw [hc, Option.some.injEq] at hc'
  exact ⟨s, h, coord, hr, hc, of_decide_eq_true hone, hc' ▸ B⟩

/-- Three requests whose rounds reserve almost 2^63 bytes each: the third reservation wraps and is
    granted, and the resident bytes are fewer than those of one active deferral. -/
theorem reservation_wraps : ¬ ∀ (c : Setup) (s : SpecDecodeScheduler) (h : List Event)
    (coord : SSRCCoordinator), c.config.ssrcEnable = true → c.Reach s h → s.ssrc = some coord →
    coord.residentBytes = sumBy coord.activeRequests fun _ rec => rec.reservedBytes := by
  intro hclaim
  let base := sampleSetup (List.replicate 3 ⟨0, 4, 2 ^ 31 - 6, 1⟩) []
  let c : Setup := { base with config := { base.config with
    enableEdc := false
    maxDraftLength := 2 ^ 32 - 1
    ssrcEnable := true
    ssrcConfidenceThreshold := 0
    ssrcStateBytesPerToken := 2 ^ 32 - 1
    ssrcResidentLimitBytes := 2 ^ 64 - 1 } }
  obtain ⟨s, h, hr, hfacts⟩ := Setup.exists_reach (c := c)
    (l := [.cycle, .cycle, .cycle, .finishModel 6, .finishModel 7, .finishModel 8, .cycle, .cycle,
      .cycle])
    (p := fun r => r.1.ssrc.any fun coord => decide (coord.residentBytes ≠
      sumBy coord.activeRequests fun _ rec => rec.reservedBytes)) (by decide +kernel)
  obtain ⟨coord, hc, hne⟩ := (Option.any_eq_true _ _).mp hfacts
  exact of_decide_eq_true hne (hclaim c s h coord rfl hr hc)

end

end Ahasd
