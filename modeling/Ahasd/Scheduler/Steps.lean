/-
  File:      Ahasd/Scheduler/Steps.lean
  Subject:   A CALL OF THE SCHEDULER IS A CHAIN OF RULES, with a target model attached.

  * `tickAndAdmit_chain`, `tryIssueOneTask_chain`, `issueLoop_chain`: the parts of `cycle`;
  * `finishModel_chain`: the four outcomes of a completion;
  * `step_chain`: every call, with what an observer sees of it.
-/
import Ahasd.Scheduler.Protocol

namespace Ahasd

open Std Transition OrderedMap

namespace SpecDecodeScheduler

/-! ## 1. The clock step and the admission -/

/-- The admission loop admits one request after the other. -/
theorem admitLoop_chain (s : SpecDecodeScheduler) :
    Chain Rule s
      { s with toLangScheduler :=
        s.toLangScheduler.admitLoop (prepareRequest s.targetModel.isSome) s.requestQueue } [] := by
  refine LangScheduler.admitLoop_of_admitOne
    (P := fun t => Chain Rule s { s with toLangScheduler := t } []) (fun t r rest hq ht hchain => ?_)
    (.nil s)
  exact hchain.trans (.one (.admitOne { s with toLangScheduler := t } r rest hq ht))

theorem tickAndAdmit_chain (s : SpecDecodeScheduler) : Chain Rule s s.tickAndAdmit [] := by
  unfold tickAndAdmit
  dsimp only
  split
  · exact .cons (.tick s) (admitLoop_chain { s with cycleCount := s.cycleCount + 1 })
  · exact .one (.tick s)

/-- Only requests that wait for their prompt are new after the admission loop. -/
theorem admitLoop_activeRequests {s : LangScheduler} {id : Nat} {r : LangRequest}
    (h : (s.admitLoop (prepareRequest true) s.requestQueue).activeRequests[id]? = some r)
    (hphase : r.specPhase ≠ .promptPending) : s.activeRequests[id]? = some r := by
  refine LangScheduler.admitLoop_of_admitOne
    (P := fun t => t.activeRequests[id]? = some r → s.activeRequests[id]? = some r)
    (fun t q rest _ _ hback hq => hback ?_) (fun h => h) h
  change (t.activeRequests.insert q.requestId _)[id]? = some r at hq
  rw [lookup_insert] at hq
  split at hq
  · cases hq
    exact absurd rfl hphase
  · exact hq

/-- The two states agree on what `observe` reads of the state before a call. -/
structure Quiet (s t : SpecDecodeScheduler) : Prop where
  queue : t.modelQueue = s.modelQueue
  traces : t.roundTraces = s.roundTraces
  ahasd : t.ahasd = s.ahasd
  active : ∀ (id : Nat) (r : LangRequest), t.activeRequests[id]? = some r →
    r.specPhase ≠ .promptPending → s.activeRequests[id]? = some r

theorem Quiet.refl (s : SpecDecodeScheduler) : Quiet s s := ⟨rfl, rfl, rfl, fun _ _ h _ => h⟩

theorem Quiet.trans {s t u : SpecDecodeScheduler} (h : Quiet s t) (h' : Quiet t u) : Quiet s u :=
  ⟨h'.queue.trans h.queue, h'.traces.trans h.traces, h'.ahasd.trans h.ahasd,
    fun id r hr hphase => h.active id r (h'.active id r hr hphase) hphase⟩

theorem tickAndAdmit_quiet {s : SpecDecodeScheduler} (ht : s.targetModel.isSome = true) :
    Quiet s s.tickAndAdmit := by
  let t : LangScheduler := { s.toLangScheduler with cycleCount := s.cycleCount + 1 }
  unfold tickAndAdmit
  dsimp only
  rw [ht]
  split
  · exact ⟨(LangScheduler.admitLoop_frame _ t).2.2.1, rfl, rfl,
      fun _ _ => admitLoop_activeRequests (s := t)⟩
  · exact ⟨rfl, rfl, rfl, fun _ _ h _ => h⟩

/-! ## 2. One request -/

/-- A call that issued one model: it ends the queue and is recorded; a draft is of a request that is
    past its prompt. -/
structure IssuedOne (s s' : SpecDecodeScheduler) (built : Model) (info : ModelMeta) : Prop where
  queue : s'.modelQueue = s.modelQueue ++ [built]
  recorded : s'.modelMeta[built.id]? = some info
  drafting : info.taskType = .draft → ∃ r : LangRequest,
    s.activeRequests[info.requestId]? = some r ∧ r.specPhase ≠ .promptPending

theorem Quiet.issuedOne {s t s' : SpecDecodeScheduler} {built : Model} {info : ModelMeta}
    (h : Quiet s t) (h' : IssuedOne t s' built info) : IssuedOne s s' built info := by
  refine ⟨h'.queue.trans (by rw [h.queue]), h'.recorded, fun hdraft => ?_⟩
  obtain ⟨r, hr, hphase⟩ := h'.drafting hdraft
  exact ⟨r, h.active _ r hr hphase, hphase⟩

theorem Quiet.plannedBy_eq {s t s' : SpecDecodeScheduler} {built : Model} {info : ModelMeta}
    (h : Quiet s t) (h' : IssuedOne t s' built info) :
    plannedBy t s' info = plannedBy s s' info := by
  unfold plannedBy pendingPredictions SpecDecodeScheduler.predictor
  rw [h.traces, h.ahasd]
  split
  · next hdraft =>
      obtain ⟨r, hr, hphase⟩ := h'.drafting hdraft.1
      rw [hr, h.active _ r hr hphase]
  · rfl

/-- What the observer makes of such a call. -/
theorem IssuedOne.newModels_eq {s s' : SpecDecodeScheduler} {built : Model} {info : ModelMeta}
    (h : IssuedOne s s' built info) : newModels s s' = [(built, info)] := by
  unfold newModels
  rw [h.queue, List.drop_left]
  simp [h.recorded]

/-- The launch of a prepared task is an issue. -/
theorem Prepared.issue {s s₁ s' : SpecDecodeScheduler} {req req' : LangRequest}
    {model : LanguageModel} {seqLength : Nat} {info : ModelMeta}
    (hprep : Prepared s req s₁ req' model seqLength info)
    (hact : s.activeRequests[req.requestId]? = some req) (hrun : req.running = false)
    (h : s₁.launch model req' seqLength info = some s') :
    ∃ built, Rule s s' [.issued built info] ∧ IssuedOne s s' built info ∧ s'.ahasd = s₁.ahasd := by
  unfold launch at h
  obtain ⟨⟨built, g⟩, hgen, rfl⟩ := Option.map_eq_some_iff.mp h
  have hframe := hprep.frame
  have hglobals : s₁.globals = s.globals := by rw [hframe]
  have hqueue : s₁.modelQueue = s.modelQueue := by rw [hframe]
  rw [hglobals] at hgen
  refine ⟨built, .issue s s₁ req req' model seqLength info built g hact hrun hprep hgen,
    ⟨?_, ?_, fun hdraft => ?_⟩, rfl⟩
  · show s₁.modelQueue ++ [built] = s.modelQueue ++ [built]
    rw [hqueue]
  · show (s₁.modelMeta.insert built.id info)[built.id]? = some info
    rw [lookup_insert, if_pos rfl]
  · refine ⟨req, by rw [hprep.request.2]; exact hact, ?_⟩
    cases hprep with
    | draft hphase => rw [hphase]; decide
    | _ => cases hdraft

theorem planOf_none_iff (s : SpecDecodeScheduler) (id round : Nat) :
    s.planOf id round = none ↔ s.roundTraces[(id, round)]? = none :=
  Option.map_eq_none_iff

/-- A model for anything but the first draft of a round shows no planning. -/
theorem plannedBy_nil {s s' : SpecDecodeScheduler} {info : ModelMeta}
    (h : info.taskType = .draft → (s.planOf info.requestId info.verifyRound).isSome) :
    plannedBy s s' info = [] := by
  unfold plannedBy
  refine if_neg fun hc => ?_
  have hsome := h hc.1
  rw [(planOf_none_iff s _ _).mpr hc.2] at hsome
  cases hsome

section Issue

variable {s s' : SpecDecodeScheduler} {req : LangRequest}

/-- What the branches of `try_issue_one_task` have in common: the last rule is the issue. -/
def IssuesOne (s s' : SpecDecodeScheduler) : Prop :=
  ∃ t built info, Chain Rule s t (plannedBy s s' info) ∧ Rule t s' [.issued built info] ∧
    IssuedOne s s' built info

/-- Drafts are what a drafting request is issued. -/
theorem Prepared.draft_iff {s₁ : SpecDecodeScheduler} {req' : LangRequest} {model : LanguageModel}
    {seqLength : Nat} {info : ModelMeta} (h : Prepared s req s₁ req' model seqLength info) :
    (info.taskType = .draft ↔ req.specPhase = .drafting) ∧
      (info.taskType = .draft → info.verifyRound = req.specRound ∧ s₁.ahasd = s.ahasd) := by
  have hahasd := h.ahasd_eq
  cases h with
  | prompt hphase => simp [hphase]
  | draft hphase => exact ⟨by simp [hphase], fun _ => ⟨rfl, by rw [hahasd, if_neg (by simp)]⟩⟩
  | verify hphase _ => simp [hphase]
  | preVerify hphase _ => simp [hphase]

/-- A task that is issued is an issue, and shows itself. -/
theorem IssuesTask.issue (hact : s.activeRequests[req.requestId]? = some req)
    (hrun : req.running = false) (h : IssuesTask s req s') :
    ∃ built info, Rule s s' [.issued built info] ∧ IssuedOne s s' built info ∧
      info.requestId = req.requestId ∧ (info.taskType = .draft ↔ req.specPhase = .drafting) ∧
      (info.taskType = .draft → info.verifyRound = req.specRound ∧ s'.ahasd = s.ahasd) := by
  obtain ⟨s₁, req', model, seqLength, info, hprep, hlaunch⟩ := h
  obtain ⟨built, hrule, hone, hahasd⟩ := hprep.issue hact hrun hlaunch
  obtain ⟨hdraft, hround⟩ := hprep.draft_iff
  refine ⟨built, info, hrule, hone, hprep.request.2, hdraft, fun htask => ?_⟩
  rw [hahasd]
  exact hround htask

/-- **One request**: a round may be planned, and at most one model is issued. -/
theorem issuePhase_chain (I : ProtocolOk s) (hact : s.activeRequests[req.requestId]? = some req)
    (hrun : req.running = false) {issued : Bool} (h : s.issuePhase req = some (s', issued)) :
    issued = true ∧ IssuesOne s s' := by
  have R := I.requests _ _ hact
  have hp := R.phase
  unfold LangRequest.PhaseFacts at hp
  rcases issuePhase_cases h with ⟨hdone, _, _⟩ | ⟨_, _, rfl, htask⟩ | ⟨hphase, rfl, htask⟩
  · rw [hdone] at hp
    exact hp.elim
  · obtain ⟨built, info, hrule, hone, hid, hdraft, hround⟩ := htask.issue hact hrun
    refine ⟨rfl, s, built, info, ?_, hrule, hone⟩
    rw [plannedBy_nil]
    · exact .nil s
    · intro hinfo
      rw [hdraft.mp hinfo] at hp
      obtain ⟨e, he⟩ := R.planned hp.1
      rw [hid, (hround hinfo).1, he]
      rfl
  · have hnew : s.roundTraces[(req.requestId, req.specRound + 1)]? = none :=
      (planOf_none_iff s _ _).mp (R.unplanned _ (Nat.lt_succ_self _))
    have hplanned : (s.planRound req).2.activeRequests[(s.plannedRequest req).requestId]? =
        some (s.plannedRequest req) := by
      rw [planRound_lookup]
      exact if_pos rfl
    obtain ⟨built, info, hrule, hone, hid, hdraft, hdrafted⟩ := htask.issue hplanned hrun
    have hinfo : info.taskType = .draft := hdraft.mpr rfl
    obtain ⟨hround, hahasd⟩ := hdrafted hinfo
    have hqueue : (s.planRound req).2.modelQueue = s.modelQueue := by
      obtain ⟨ssrc, deferred, hplan⟩ := s.planRound_eq req
      rw [hplan]
    have hround' : info.verifyRound = req.specRound + 1 := hround
    have hid' : info.requestId = req.requestId := hid
    refine ⟨rfl, _, built, info, ?_, hrule, ⟨hone.queue.trans (by rw [hqueue]), hone.recorded,
      fun _ => ⟨req, by rw [hid']; exact hact, by rw [hphase]; decide⟩⟩⟩
    have hshow : plannedBy s s' info =
        [.planned req.requestId (req.specRound + 1) (computeEntropyHint req)
          ((s.planRound req).2.pendingPredictions.drop s.pendingPredictions.length)] := by
      have hpending : s'.pendingPredictions = (s.planRound req).2.pendingPredictions := by
        unfold pendingPredictions predictor
        rw [hahasd]
      unfold plannedBy
      rw [if_pos ⟨hinfo, by rw [hid', hround']; exact hnew⟩, hid', hround', hpending, hact]
      rfl
    rw [hshow]
    exact .one (.plan s req hact hrun hphase)

end Issue

/-- `try_issue_one_task` as the loop sees it: it goes on with the same requests, or stops after one
    model. -/
theorem tryIssueOneTask_chain {s s' : SpecDecodeScheduler} (I : ProtocolOk s) {req : LangRequest}
    (hact : s.activeRequests[req.requestId]? = some req) {issued : Bool}
    (h : s.tryIssueOneTask req = some (s', issued)) :
    if issued then IssuesOne s s'
    else Chain Rule s s' [] ∧ Quiet s s' ∧ s'.activeRequests = s.activeRequests := by
  unfold tryIssueOneTask at h
  split at h
  · cases h
    exact ⟨.nil s, .refl s, rfl⟩
  · next hrunning =>
      have hrun : req.running = false := by
        cases hb : req.running with
        | false => rfl
        | true => exact absurd hb hrunning
      split at h
      · obtain ⟨hissued, hone⟩ := issuePhase_chain I hact hrun h
        rw [if_pos hissued]
        exact hone
      · next stallUntil _ =>
          split at h
          · cases h
            exact ⟨.nil s, .refl s, rfl⟩
          · have hrule := Rule.unstall s req.requestId
            obtain ⟨hissued, t, built, info, hchain, hissue, hone⟩ :=
              issuePhase_chain (I.rule hrule) hact hrun h
            rw [if_pos hissued]
            exact ⟨t, built, info, (Chain.one hrule).trans hchain, hissue,
              ⟨hone.queue, hone.recorded, hone.drafting⟩⟩

/-- **The issue loop**: nothing, or one model. -/
theorem issueLoop_chain (entries : List (Nat × LangRequest)) {s s' : SpecDecodeScheduler}
    (I : ProtocolOk s) (hentries : ∀ p ∈ entries, s.activeRequests[p.1]? = some p.2)
    (h : issueLoop entries s = some s') :
    (Chain Rule s s' [] ∧ Quiet s s') ∨ IssuesOne s s' := by
  induction entries generalizing s with
  | nil =>
      cases h
      exact .inl ⟨.nil _, .refl _⟩
  | cons entry rest ih =>
      obtain ⟨id, req⟩ := entry
      have hact := hentries _ List.mem_cons_self
      have hkey := (I.requests _ _ hact).keyed
      unfold issueLoop at h
      split at h
      · cases h
      · next s₁ htry =>
          cases h
          have hone := tryIssueOneTask_chain I (hkey.symm ▸ hact) htry
          exact .inr hone
      · next s₁ htry =>
          obtain ⟨hchain, hquiet, hactive⟩ := tryIssueOneTask_chain I (hkey.symm ▸ hact) htry
          have I₁ : ProtocolOk s₁ := I.chain hchain
          have hrest : ∀ p ∈ rest, s₁.activeRequests[p.1]? = some p.2 := by
            rw [hactive]
            exact fun p hp => hentries p (List.mem_cons_of_mem _ hp)
          rcases ih I₁ hrest h with
            ⟨hchain', hquiet'⟩ | ⟨t, built, info, hc, hissue, hone⟩
          · exact .inl ⟨hchain.trans hchain', hquiet.trans hquiet'⟩
          · refine .inr ⟨t, built, info, ?_, hissue, hquiet.issuedOne hone⟩
            rw [← hquiet.plannedBy_eq hone]
            exact hchain.trans hc

/-! ## 3. The calls -/

/-- With a target attached `cycle` is the issue loop over the requests. -/
theorem cycle_issueLoop {s s' : SpecDecodeScheduler} (I : ProtocolOk s) (h : s.cycle = some s') :
    ProtocolOk s.tickAndAdmit ∧
      (∀ p ∈ s.tickAndAdmit.activeRequests.toList,
        s.tickAndAdmit.activeRequests[p.1]? = some p.2) ∧
      issueLoop s.tickAndAdmit.activeRequests.toList s.tickAndAdmit = some s' := by
  have I₁ : ProtocolOk s.tickAndAdmit := I.chain s.tickAndAdmit_chain
  obtain ⟨target, htarget⟩ := Option.isSome_iff_exists.mp I₁.target
  unfold cycle at h
  dsimp only at h
  rw [htarget, if_neg (by simp)] at h
  exact ⟨I₁, fun p hp => TreeMap.mem_toList_iff_getElem?_eq_some.mp hp, h⟩

/-- A `cycle` shows nothing, or it ends with an issue and shows it, after the planning of its
    round. -/
theorem cycle_cases {s s' : SpecDecodeScheduler} (I : ProtocolOk s) (h : s.cycle = some s') :
    (Chain Rule s s' [] ∧ observe s .cycle s' = []) ∨
      ∃ t built info, Chain Rule s t (plannedBy s s' info) ∧ Rule t s' [.issued built info] ∧
        observe s .cycle s' = plannedBy s s' info ++ [.issued built info] := by
  have hadmitted := s.tickAndAdmit_chain
  have hquiet := tickAndAdmit_quiet I.target
  obtain ⟨I₁, hentries, hloop⟩ := cycle_issueLoop I h
  unfold observe
  dsimp only
  rcases issueLoop_chain _ I₁ hentries hloop with
    ⟨hchain, hquiet'⟩ | ⟨t, built, info, hchain, hissue, hone⟩
  · have hnone : newModels s s' = [] := by
      unfold newModels
      rw [(hquiet.trans hquiet').queue, List.drop_length]
      rfl
    rw [hnone]
    exact .inl ⟨hadmitted.trans hchain, rfl⟩
  · rw [(hquiet.issuedOne hone).newModels_eq]
    rw [hquiet.plannedBy_eq hone] at hchain
    refine .inr ⟨t, built, info, hadmitted.trans hchain, hissue, ?_⟩
    simp only [List.flatMap_cons, List.flatMap_nil, List.append_nil]

theorem cycle_chain {s s' : SpecDecodeScheduler} (I : ProtocolOk s) (h : s.cycle = some s') :
    Chain Rule s s' (observe s .cycle s') := by
  rcases cycle_cases I h with ⟨hchain, hobs⟩ | ⟨t, built, info, hchain, hissue, hobs⟩
  · rw [hobs]
    exact hchain
  · rw [hobs]
    exact hchain.trans (.one hissue)

theorem finishModel_chain {s s' : SpecDecodeScheduler} {modelId : Nat}
    (h : s.finishModel modelId = some s') :
    Rule s s' (observe s (.finishModel modelId) s') := by
  unfold finishModel at h
  cases hinfo : s.modelMeta[modelId]? with
  | none =>
      rw [hinfo] at h
      obtain ⟨base, hbase, rfl⟩ := Option.map_eq_some_iff.mp h
      exact .stray s modelId base hinfo hbase
  | some info =>
      rw [hinfo] at h
      dsimp only at h
      cases hact : s.activeRequests[info.requestId]? with
      | none =>
          rw [hact] at h
          cases h
          exact .orphan s modelId info hinfo hact
      | some req =>
          rw [hact] at h
          cases h
          exact .finish s modelId info req hinfo hact

/-- **Every call is a chain of rules**, and shows what they show. -/
theorem step_chain {s s' : SpecDecodeScheduler} {a : Act} (I : ProtocolOk s)
    (h : machine.step s a = some s') : Chain Rule s s' (machine.obs s a s') := by
  cases a with
  | cycle => exact cycle_chain I h
  | finishModel modelId => exact .one (finishModel_chain h)
  | popModel =>
      obtain ⟨⟨model, t⟩, hpop, rfl⟩ := Option.map_eq_some_iff.mp h
      unfold popModel LangScheduler.popModel at hpop
      obtain ⟨⟨m, base⟩, hbase, heq⟩ := Option.map_eq_some_iff.mp hpop
      cases heq
      cases hq : s.modelQueue with
      | nil => rw [hq] at hbase; cases hbase
      | cons m' rest =>
          rw [hq] at hbase
          cases hbase
          exact .one (.pop s m rest hq)
  | npuProgress npuCycle =>
      cases h
      exact .one (.beacon s npuCycle)
  | dramPush cid req npuCycle =>
      cases h
      have hr := Rule.memory s (fun p => (p.onDramPush cid req npuCycle).2) id
        (fun p => p.onDramPush_sameRanks cid req npuCycle) .refl
      rw [Option.map_id] at hr
      exact .one hr
  | aauBypass cid req =>
      cases h
      have hr := Rule.memory s (fun p => (p.tryAauBypass cid req).2) id
        (fun p => p.tryAauBypass_sameRanks cid req) .refl
      rw [Option.map_id] at hr
      exact .one hr
  | ssrcBypass cid req =>
      cases hp : s.pim with
      | none =>
          unfold machine step at h
          dsimp only at h
          rw [hp] at h
          cases h
          exact .nil s
      | some p =>
          cases hc : s.ssrc with
          | none =>
              unfold machine step at h
              dsimp only at h
              rw [hp, hc] at h
              cases h
              exact .nil s
          | some c =>
              have hr := Rule.memory s (fun p => (p.trySsrcBypass c cid req).2.1)
                (fun c => (p.trySsrcBypass c cid req).2.2)
                (fun p => (p.trySsrcBypass_frame cid req c).1)
                (fun c => (p.trySsrcBypass_frame cid req c).2)
              rw [hp, hc] at hr
              unfold machine step at h
              dsimp only at h
              rw [hp, hc] at h
              cases h
              exact .one hr
  | drawId =>
      cases h
      exact .one (.draw s _ (Nat.le_succ _))
  | drawAddress size =>
      cases h
      exact .one (.draw s _ (Nat.le_refl _))

/-- A call that shows an issue ends with it, after the planning of its round. -/
theorem step_issued {s s' : SpecDecodeScheduler} {a : Act} {built : Model} {info : ModelMeta}
    (I : ProtocolOk s) (h : machine.step s a = some s')
    (hi : .issued built info ∈ machine.obs s a s') :
    ∃ t, Chain Rule s t (plannedBy s s' info) ∧ Rule t s' [.issued built info] := by
  cases a with
  | cycle =>
      change .issued built info ∈ observe s .cycle s' at hi
      rcases cycle_cases I h with ⟨_, hobs⟩ | ⟨t, built', info', hchain, hissue, hobs⟩
      · rw [hobs] at hi
        cases hi
      · rw [hobs] at hi
        rcases List.mem_append.mp hi with hi | hi
        · unfold plannedBy at hi
          split at hi
          · cases List.mem_singleton.mp hi
          · cases hi
        · cases List.mem_singleton.mp hi
          exact ⟨t, hchain, hissue⟩
  | finishModel modelId =>
      obtain ⟨e, _, he⟩ := List.mem_map.mp hi
      cases he
  | _ => cases hi

/-- The completion of a recorded model. -/
theorem step_finish {s s' : SpecDecodeScheduler} {modelId : Nat} {info : ModelMeta}
    (I : ProtocolOk s) (hinfo : s.modelMeta[modelId]? = some info)
    (h : machine.step s (.finishModel modelId) = some s') :
    ∃ req : LangRequest, info.requestId = req.requestId ∧
      s.activeRequests[req.requestId]? = some req ∧ s' = (s.completed modelId req info).2 ∧
      machine.obs s (.finishModel modelId) s' = [.finished (s.completed modelId req info).1] := by
  obtain ⟨_, req, hact, _⟩ := I.tasks _ _ hinfo
  have hid : info.requestId = req.requestId := (I.requests _ _ hact).keyed.symm
  unfold machine step finishModel at h
  dsimp only at h
  rw [hinfo] at h
  dsimp only at h
  rw [hact] at h
  cases h
  exact ⟨req, hid, hid ▸ hact, rfl, rfl⟩

end SpecDecodeScheduler

end Ahasd
