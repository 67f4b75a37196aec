/-
  File:      Ahasd/Scheduler/Runs.lean
  Subject:   THE RUNS FROM A SET-UP: the state they start in, what the configuration fixes for good,
             and the induction over a run, move by move.

  * `Fresh`: the start state; `Configured`: what every state of a run keeps of its set-up;
  * `Setup.Reach.inv`, `Setup.Reach.induct`: the invariants of a run with a target model attached,
    and the induction over its moves;
  * `Fallback`, `Setup.Reach.fallback`: without a target model the base scheduler runs, and nothing
    speculative happens.
-/
import Ahasd.Scheduler.Moves

namespace Ahasd

open Std Transition OrderedMap

/-! ## 1. The start -/

/-- The ids of the parsed requests count up, and each request is its row. -/
theorem parseRows_spec (rows : List RequestRow) (id timeOffset : Nat) :
    (∀ r ∈ parseRows id timeOffset rows, id ≤ r.requestId ∧
      ∃ row, rows[r.requestId - id]? = some row ∧ r.promptLength = row.promptLength ∧
        r.targetLength = row.targetLength ∧ r.currentLength = row.cachedLength) ∧
    (parseRows id timeOffset rows).Pairwise fun a b => a.requestId < b.requestId := by
  induction rows generalizing id timeOffset with
  | nil => exact ⟨fun _ h => absurd h List.not_mem_nil, List.Pairwise.nil⟩
  | cons row rows ih =>
      obtain ⟨hrest, hsorted⟩ := ih (id + 1) (u64 (timeOffset + row.time))
      unfold parseRows
      refine ⟨fun r hr => ?_, List.pairwise_cons.mpr ⟨fun r hr => ?_, hsorted⟩⟩
      · rcases List.mem_cons.mp hr with rfl | hr
        · exact ⟨Nat.le_refl id, row, by simp, rfl, rfl, rfl⟩
        · obtain ⟨hle, row', hrow, hfields⟩ := hrest r hr
          refine ⟨by omega, row', ?_, hfields⟩
          rw [show r.requestId - id = r.requestId - (id + 1) + 1 by omega,
            List.getElem?_cons_succ]
          exact hrow
      · have := (hrest r hr).1
        show id < r.requestId
        omega

/-- The request is the row of its id, as far as the row goes. -/
def Setup.OfRow (c : Setup) (r : LangRequest) : Prop :=
  ∃ row : RequestRow, c.rows[r.requestId]? = some row ∧ r.promptLength = row.promptLength ∧
    r.targetLength = row.targetLength ∧
    (r.specPhase = .promptPending → r.currentLength = row.cachedLength)

namespace SpecDecodeScheduler

/-- The state a run starts in. -/
structure Fresh (c : Setup) (s : SpecDecodeScheduler) : Prop where
  target : s.targetModel = c.targetModel
  draft : s.languageModel = c.draftModel
  layers : s.numSimLayers = c.draftModel.numSimLayers
  queue : s.requestQueue = parseRows 0 0 c.rows
  active : s.activeRequests = ∅
  modelMeta : s.modelMeta = ∅
  inModel : s.requestsInModel = ∅
  preVerified : s.preVerifiedInRound = ∅
  modes : s.lastRankMode = ∅
  traces : s.roundTraces = ∅
  hints : s.hintUses = []
  vskm : s.vskm.requests = ∅ ∧ s.vskm.stats.acceptedTokens = 0
  regions : s.vskm.currentSpeculativeKvBytes = 0 ∧ s.vskm.stats.peakSpeculativeKvBytes = 0
  ahasd : s.ahasd = c.ahasd
  pim : s.pim = c.pim
  ssrc : s.ssrc = some (.new c.config.toSSRCConfig)
  deferred : s.ssrcDeferredRound = ∅

end SpecDecodeScheduler

/-- **The scheduler a run starts with**, around its base scheduler. -/
theorem Setup.start_eq {c : Setup} {s : SpecDecodeScheduler} (h : c.start = some s) :
    ∃ base, LangScheduler.new c.draftModel c.config c.schedulerConfig c.rows c.globals = some base ∧
      s = { toLangScheduler := base
            targetModel := c.targetModel
            maxDraftLength := max 1 c.config.maxDraftLength
            defaultDraftLength := max 1 c.config.maxDraftLength
            acceptModel := .loadFromConfig c.lib c.config c.acceptRows
            vskm := .new
              { enableVskm := c.config.enableVskm
                kvManagementMode := c.config.kvManagementMode
                versionEntries := c.config.vskmVersionEntries
                enableLazyRollback := c.config.vskmEnableLazyRollback
                virtualUncommittedBatches := c.config.vskmVirtualUncommittedBatches }
              (SpecDecodeScheduler.kvBytesPerToken base)
            ahasd := c.ahasd
            pim := c.pim
            ssrc := some (.new c.config.toSSRCConfig) } := by
  unfold Setup.start SpecDecodeScheduler.new at h
  cases hbase : LangScheduler.new c.draftModel c.config c.schedulerConfig c.rows c.globals with
  | none =>
      rw [hbase] at h
      cases h
  | some base =>
      rw [hbase] at h
      refine ⟨base, rfl, ?_⟩
      cases ht : c.targetModel with
      | none =>
          rw [ht] at h
          exact (Option.some.inj h).symm
      | some target =>
          rw [ht] at h
          exact (Option.some.inj h).symm

/-- What the base scheduler starts with. -/
theorem LangScheduler.new_spec {model : LanguageModel} {config : SimulationConfig}
    {schedulerConfig : SchedulerConfig} {rows : List RequestRow} {globals : Globals}
    {base : LangScheduler}
    (h : LangScheduler.new model config schedulerConfig rows globals = some base) :
    base.languageModel = model ∧ base.numSimLayers = model.numSimLayers ∧
      base.requestQueue = parseRows 0 0 rows ∧ base.activeRequests = ∅ ∧
      base.requestsInModel = ∅ ∧ base.maxBatchSize = schedulerConfig.maxBatchSize.getD 0 := by
  unfold LangScheduler.new at h
  cases hq : parseRequestTrace rows with
  | none => simp [hq] at h
  | some queue =>
      have hqueue : queue = parseRows 0 0 rows := by
        unfold parseRequestTrace at hq
        split at hq
        · exact (Option.some.inj hq).symm
        · cases hq
      rw [hq] at h
      cases h
      exact ⟨rfl, rfl, hqueue, rfl, rfl, rfl⟩

open SpecDecodeScheduler in
theorem Setup.start_fresh {c : Setup} {s : SpecDecodeScheduler} (h : c.start = some s) :
    Fresh c s := by
  obtain ⟨base, hbase, rfl⟩ := Setup.start_eq h
  obtain ⟨hmodel, hlayers, hqueue, hactive, hin, _⟩ := LangScheduler.new_spec hbase
  exact ⟨rfl, hmodel, hlayers, hqueue, hactive, rfl, hin, rfl, rfl, rfl, rfl, ⟨rfl, rfl⟩, ⟨rfl, rfl⟩,
    rfl, rfl, rfl, rfl⟩

theorem Setup.start_maxBatchSize {c : Setup} {s : SpecDecodeScheduler} (h : c.start = some s) :
    s.maxBatchSize = c.schedulerConfig.maxBatchSize.getD 0 := by
  obtain ⟨base, hbase, rfl⟩ := Setup.start_eq h
  exact (LangScheduler.new_spec hbase).2.2.2.2.2

namespace SpecDecodeScheduler

section Fresh

variable {c : Setup} {s : SpecDecodeScheduler}

theorem Fresh.noActive (F : Fresh c s) (id : Nat) : s.activeRequests[id]? = none := by
  rw [F.active]
  exact lookup_empty id

theorem Fresh.noModel (F : Fresh c s) (mid : Nat) : s.modelMeta[mid]? = none := by
  rw [F.modelMeta]
  exact lookup_empty mid

theorem Fresh.noPlan (F : Fresh c s) (id n : Nat) : s.planOf id n = none := by
  unfold planOf
  rw [F.traces]
  exact congrArg _ (lookup_empty (id, n))

theorem Fresh.noPreVerify (F : Fresh c s) (id : Nat) : s.preVerifiedInRound[id]? = none := by
  rw [F.preVerified]
  exact lookup_empty id

/-- The invariant holds at the start. -/
theorem Fresh.protocolOk (F : Fresh c s) (ht : c.targetModel.isSome = true) : ProtocolOk s := by
  refine ⟨by rw [F.target]; exact ht, ?_, ?_, ?_, ?_, ?_, ?_, ?_, ?_⟩
  · rw [F.queue]
    exact (parseRows_spec c.rows 0 0).2
  · intro id r hr
    rw [F.noActive] at hr
    cases hr
  · intro mid info hinfo
    rw [F.noModel] at hinfo
    cases hinfo
  · intro mid mid' info info' h
    rw [F.noModel] at h
    cases h
  · intro id r hr
    rw [F.noActive] at hr
    cases hr
  · intro mid
    rw [F.noModel, F.inModel]
    exact lookup_empty mid
  · intro id n h
    rw [F.noPreVerify] at h
    cases h
  · intro id n p h
    rw [F.noPlan] at h
    cases h

end Fresh

/-! ## 2. What the set-up fixes -/

/-- What every state of a run keeps of its set-up. -/
structure Configured (c : Setup) (s : SpecDecodeScheduler) : Prop where
  target : s.targetModel = c.targetModel
  draft : s.languageModel = c.draftModel
  layers : s.numSimLayers = c.draftModel.numSimLayers
  ahasd : s.ahasd.map AHASDIntegration.config = c.ahasd.map AHASDIntegration.config
  queued : ∀ r ∈ s.requestQueue, c.OfRow r ∧
    ∃ row : RequestRow, c.rows[r.requestId]? = some row ∧ r.currentLength = row.cachedLength
  active : ∀ (id : Nat) (r : LangRequest), s.activeRequests[id]? = some r → c.OfRow r

theorem Fresh.configured {c : Setup} {s : SpecDecodeScheduler} (F : Fresh c s) :
    Configured c s := by
  refine ⟨F.target, F.draft, F.layers, by rw [F.ahasd], ?_, ?_⟩
  · intro r hr
    rw [F.queue] at hr
    obtain ⟨_, row, hrow, hprompt, htarget, hcached⟩ := (parseRows_spec c.rows 0 0).1 r hr
    rw [Nat.sub_zero] at hrow
    exact ⟨⟨row, hrow, hprompt, htarget, fun _ => hcached⟩, row, hrow, hcached⟩
  · intro id r hr
    rw [F.noActive] at hr
    cases hr

/-- The id of an active request is that of a row. -/
theorem Configured.request_lt {c : Setup} {s : SpecDecodeScheduler} (C : Configured c s) {id : Nat}
    {r : LangRequest} (hact : s.activeRequests[id]? = some r) : r.requestId < c.rows.length := by
  obtain ⟨row, hrow, _⟩ := C.active id r hact
  exact (List.getElem?_eq_some_iff.mp hrow).1

/-- A task keeps the lengths the row gave the request, and only the prompt's task ends the prompt's
    phase. -/
theorem afterTask_row {s : SpecDecodeScheduler} {req r : LangRequest} {info : ModelMeta}
    (hr : s.afterTask req info = some r) :
    r.requestId = req.requestId ∧ r.promptLength = req.promptLength ∧
      r.targetLength = req.targetLength ∧
      (r.specPhase = .promptPending →
        req.specPhase = .promptPending ∧ r.currentLength = req.currentLength) := by
  unfold afterTask at hr
  cases hty : info.taskType with
  | autoreg =>
      rw [hty] at hr
      cases hr
      exact ⟨rfl, rfl, rfl, fun h => ⟨h, rfl⟩⟩
  | preVerify =>
      rw [hty] at hr
      cases hr
      exact ⟨rfl, rfl, rfl, fun h => ⟨h, rfl⟩⟩
  | prompt =>
      rw [hty] at hr
      cases hr
      exact ⟨rfl, rfl, rfl, fun h => by cases h⟩
  | draft =>
      rw [hty] at hr
      cases hr
      refine ⟨rfl, rfl, rfl, fun h => ?_⟩
      unfold draftedRequest LangRequest.resizeCache at h
      dsimp only at h
      split at h <;> cases h
  | verify =>
      rw [hty] at hr
      dsimp only at hr
      split at hr
      · cases hr
      · next hgo =>
          cases hr
          have hnext := applyVerifyResult_next hgo
          refine ⟨applyVerifyResult_requestId _ _ _, ?_, ?_, fun h => ?_⟩
          · unfold applyVerifyResult
            dsimp only
            split <;> rfl
          · unfold applyVerifyResult
            dsimp only
            split <;> rfl
          · rw [hnext] at h
            cases h

/-- **Every move keeps what the set-up fixed.** -/
theorem Configured.move {c : Setup} {s s' : SpecDecodeScheduler} {e : List Event}
    (C : Configured c s) (h : Move s s' e) : Configured c s' := by
  obtain ⟨target, draft, layers, ahasd, queued, active⟩ := C
  have hconfig : ∀ {g : AHASDIntegration → AHASDIntegration}, (∀ a, (g a).config = a.config) →
      (s.ahasd.map g).map AHASDIntegration.config = c.ahasd.map AHASDIntegration.config := by
    intro g hg
    rw [← ahasd, Option.map_map]
    exact Option.map_congr fun a _ => hg a
  cases h with
  | minor s' h =>
      obtain ⟨tvc, htvc, hsame⟩ := h.ahasd
      refine ⟨h.target.trans target, h.draft.trans draft, h.layers.trans layers, ?_,
        by rw [h.queue]; exact queued, by rw [h.active]; exact active⟩
      rw [htvc]
      exact hconfig fun a => (hsame a).1
  | admitOne r rest hq =>
      refine ⟨target, draft, layers, ahasd, ?_, ?_⟩
      · exact fun q hqr => queued q (hq ▸ List.mem_cons_of_mem r hqr)
      · intro id q hqact
        change (s.activeRequests.insert r.requestId _)[id]? = some q at hqact
        rw [lookup_insert] at hqact
        split at hqact
        · cases hqact
          obtain ⟨⟨row, hrow, hprompt, htarget, _⟩, row', hrow', hcached⟩ :=
            queued r (hq ▸ List.mem_cons_self)
          rw [hrow, Option.some.injEq] at hrow'
          subst hrow'
          exact ⟨row, hrow, hprompt, htarget, fun _ => hcached⟩
        · exact active id q hqact
  | plan req hact hrun hphase =>
      obtain ⟨ssrc, deferred, heq⟩ := s.planRound_eq req
      rw [heq]
      refine ⟨target, draft, layers, hconfig (s.planAhasd_config req), queued, ?_⟩
      intro id q hq
      change (s.activeRequests.insert req.requestId _)[id]? = some q at hq
      rw [lookup_insert] at hq
      split at hq
      · cases hq
        obtain ⟨row, hrow, hprompt, htarget, _⟩ := active _ _ hact
        exact ⟨row, hrow, hprompt, htarget, fun h => by cases h⟩
      · exact active id q hq
  | issue s₁ req req' model seqLength info built g hact hrun hprep hgen =>
      obtain ⟨tvc, htvc, hsame⟩ := hprep.ahasd_map
      have L := hprep.launched hgen
      obtain ⟨v, hactive⟩ := L.active
      have hdraft : s₁.languageModel = s.languageModel := by rw [hprep.frame]
      refine ⟨L.target.trans target, hdraft.trans draft, L.layers.trans layers, ?_,
        by rw [L.queue]; exact queued, ?_⟩
      · show s₁.ahasd.map _ = _
        rw [htvc]
        exact hconfig fun a => (hsame a).1
      · intro id q hq
        rw [hactive] at hq
        split at hq
        · cases hq
          obtain ⟨row, hrow, hprompt, htarget, hcached⟩ := active _ _ hact
          exact ⟨row, hrow, hprompt, htarget, hcached⟩
        · exact active id q hq
  | finish modelId info req hinfo hid hact htask =>
      obtain ⟨_, _, _, _, _, _, _, _, _, _, _, _, _, hframe⟩ := s.completed_frame modelId req info
      have hfixed : (s.completed modelId req info).2.targetModel = s.targetModel ∧
          (s.completed modelId req info).2.languageModel = s.languageModel ∧
          (s.completed modelId req info).2.numSimLayers = s.numSimLayers := by
        rw [hframe]
        exact ⟨rfl, rfl, rfl⟩
      refine ⟨hfixed.1.trans target, hfixed.2.1.trans draft, hfixed.2.2.trans layers, ?_,
        by rw [completed_requestQueue]; exact queued, ?_⟩
      · rw [completed_ahasd]
        exact hconfig (s.taskAhasd_config req info)
      · intro id q hq
        rw [s.completed_activeRequests modelId req info hid hact] at hq
        split at hq
        · obtain ⟨r, hr, rfl⟩ := Option.map_eq_some_iff.mp hq
          obtain ⟨hkey, hprompt, htarget, hpending⟩ := afterTask_row hr
          obtain ⟨row, hrow, hp, ht, hc⟩ := active _ _ hact
          refine ⟨row, by rw [← hrow, ← hkey], hprompt.trans hp, htarget.trans ht, fun h => ?_⟩
          obtain ⟨hphase, hlength⟩ := hpending h
          exact hlength.trans (hc hphase)
        · exact active id q hq

end SpecDecodeScheduler

/-! ## 3. The induction over a run -/

namespace SpecDecodeScheduler

section Rules

variable {c : Setup} {P : SpecDecodeScheduler → List Event → Prop}
  (hrule : ∀ s h s' e, ProtocolOk s → Configured c s → P s h → Rule s s' e → P s' (h ++ e))

include hrule

/-- What every rule keeps, a chain of rules keeps. -/
theorem chain_rules {s s' : SpecDecodeScheduler} {h e : List Event} (I : ProtocolOk s)
    (C : Configured c s) (hP : P s h) (hc : Chain Rule s s' e) :
    ProtocolOk s' ∧ Configured c s' ∧ P s' (h ++ e) := by
  refine hc.preserves (P := fun s h => ProtocolOk s ∧ Configured c s ∧ P s h) ?_ ⟨I, C, hP⟩
  rintro s h s' e ⟨I, C, hP⟩ hs
  exact ⟨I.rule hs, C.move (I.move hs), hrule s h s' e I C hP hs⟩

/-- What every rule keeps, a segment of a run keeps. -/
theorem exec_rules {s s' : SpecDecodeScheduler} {h : List Event} (I : ProtocolOk s)
    (C : Configured c s) (hP : P s []) (hx : Exec machine s s' h) :
    ProtocolOk s' ∧ Configured c s' ∧ P s' h := by
  refine hx.invariant (P := fun s h => ProtocolOk s ∧ Configured c s ∧ P s h) ⟨I, C, hP⟩ ?_
  rintro s h a s' ⟨I, C, hP⟩ hs
  exact chain_rules hrule I C hP (step_chain I hs)

end Rules

section Moves

variable {c : Setup} {P : SpecDecodeScheduler → List Event → Prop}
  (hmove : ∀ s h s' e, ProtocolOk s → Configured c s → P s h → Move s s' e → P s' (h ++ e))

include hmove

/-- What every move keeps, a chain of rules keeps. -/
theorem chain_moves {s s' : SpecDecodeScheduler} {h e : List Event} (I : ProtocolOk s)
    (C : Configured c s) (hP : P s h) (hc : Chain Rule s s' e) :
    ProtocolOk s' ∧ Configured c s' ∧ P s' (h ++ e) :=
  chain_rules (fun s h s' e I C hP hs => hmove s h s' e I C hP (I.move hs)) I C hP hc

/-- What every move keeps, a segment of a run keeps. -/
theorem exec_moves {s s' : SpecDecodeScheduler} {h : List Event} (I : ProtocolOk s)
    (C : Configured c s) (hP : P s []) (hx : Exec machine s s' h) :
    ProtocolOk s' ∧ Configured c s' ∧ P s' h :=
  exec_rules (fun s h s' e I C hP hs => hmove s h s' e I C hP (I.move hs)) I C hP hx

end Moves

/-- **A call completes one recorded model, or finishes no task**, and is then made of the other
    rules. -/
theorem step_completes_rules {c : Setup} {P : SpecDecodeScheduler → Prop}
    (hrule : ∀ s s' e, ProtocolOk s → Configured c s → P s → Rule s s' e →
      (∀ ev, .finished ev ∉ e) → P s')
    {s s' : SpecDecodeScheduler} {a : Act} (I : ProtocolOk s) (C : Configured c s) (hP : P s)
    (hs : machine.step s a = some s') :
    (∃ (modelId : Nat) (info : ModelMeta) (req : LangRequest), a = .finishModel modelId ∧
      s.modelMeta[modelId]? = some info ∧ info.requestId = req.requestId ∧
        s.activeRequests[req.requestId]? = some req ∧ s' = (s.completed modelId req info).2 ∧
        machine.obs s a s' = [.finished (s.completed modelId req info).1]) ∨
      P s' ∧ ∀ ev, .finished ev ∉ machine.obs s a s' := by
  have hquiet : (∀ ev, .finished ev ∉ machine.obs s a s') → P s' := by
    intro hnone
    refine (chain_rules (c := c) (h := []) (P := fun s h => (∀ ev, .finished ev ∉ h) → P s) ?_ I C
      (fun _ => hP) (step_chain I hs)).2.2 hnone
    intro s h s' e I C hP hm hno
    refine hrule s s' e I C (hP fun ev hev => ?_) hm fun ev hev => ?_
    · exact hno ev (List.mem_append_left _ hev)
    · exact hno ev (List.mem_append_right _ hev)
  cases a with
  | cycle =>
      have hnone : ∀ ev, .finished ev ∉ machine.obs s .cycle s' := by
        intro ev hev
        obtain ⟨m, _, hm⟩ := List.mem_flatMap.mp hev
        rcases List.mem_append.mp hm with hm | hm
        · unfold plannedBy at hm
          split at hm <;> simp at hm
        · cases List.mem_singleton.mp hm
      exact .inr ⟨hquiet hnone, hnone⟩
  | finishModel modelId =>
      cases hinfo : s.modelMeta[modelId]? with
      | some info =>
          obtain ⟨req, hid, hact, hs', hobs⟩ := step_finish I hinfo hs
          exact .inl ⟨modelId, info, req, rfl, hinfo, hid, hact, hs', hobs⟩
      | none =>
          have hnone : ∀ ev, .finished ev ∉ machine.obs s (.finishModel modelId) s' := by
            intro ev hev
            unfold machine step finishModel at hs
            dsimp only at hs
            rw [hinfo] at hs
            obtain ⟨base, hbase, rfl⟩ := Option.map_eq_some_iff.mp hs
            obtain rfl := I.stray_eq hinfo hbase
            cases hev
          exact .inr ⟨hquiet hnone, hnone⟩
  | _ =>
      have hnone : ∀ ev, .finished ev ∉ ([] : List Event) := fun _ => List.not_mem_nil
      exact .inr ⟨hquiet hnone, hnone⟩

/-- **A call completes one recorded model, or finishes no task**, and is then made of the other
    moves. -/
theorem step_completes {c : Setup} {P : SpecDecodeScheduler → Prop}
    (hmove : ∀ s s' e, ProtocolOk s → Configured c s → P s → Move s s' e →
      (∀ ev, .finished ev ∉ e) → P s')
    {s s' : SpecDecodeScheduler} {a : Act} (I : ProtocolOk s) (C : Configured c s) (hP : P s)
    (hs : machine.step s a = some s') :
    (∃ (modelId : Nat) (info : ModelMeta) (req : LangRequest), a = .finishModel modelId ∧
      s.modelMeta[modelId]? = some info ∧ info.requestId = req.requestId ∧
        s.activeRequests[req.requestId]? = some req ∧ s' = (s.completed modelId req info).2 ∧
        machine.obs s a s' = [.finished (s.completed modelId req info).1]) ∨
      P s' ∧ ∀ ev, .finished ev ∉ machine.obs s a s' :=
  step_completes_rules (fun s s' e I C hP hr => hmove s s' e I C hP (I.move hr)) I C hP hs

end SpecDecodeScheduler

namespace Setup.Reach

open SpecDecodeScheduler

variable {c : Setup} {s : SpecDecodeScheduler} {h : List Event}

/-- **The induction over a run with a target model attached**, move by move. -/
theorem induct (ht : c.targetModel.isSome = true) {P : SpecDecodeScheduler → List Event → Prop}
    (h0 : ∀ s₀, Fresh c s₀ → P s₀ [])
    (hmove : ∀ s h s' e, ProtocolOk s → Configured c s → P s h → Move s s' e → P s' (h ++ e))
    (hr : c.Reach s h) : P s h := by
  obtain ⟨s₀, hstart, hexec⟩ := hr
  have F := Setup.start_fresh hstart
  exact (exec_moves hmove (F.protocolOk ht) F.configured (h0 s₀ F) hexec).2.2

/-- The induction over a run, rule by rule. -/
theorem induct_rules (ht : c.targetModel.isSome = true)
    {P : SpecDecodeScheduler → List Event → Prop} (h0 : ∀ s₀, Fresh c s₀ → P s₀ [])
    (hrule : ∀ s h s' e, ProtocolOk s → Configured c s → P s h → Rule s s' e → P s' (h ++ e))
    (hr : c.Reach s h) : P s h := by
  obtain ⟨s₀, hstart, hexec⟩ := hr
  have F := Setup.start_fresh hstart
  exact (exec_rules hrule (F.protocolOk ht) F.configured (h0 s₀ F) hexec).2.2

/-- The invariants of a run with a target model attached. -/
theorem inv (ht : c.targetModel.isSome = true) (hr : c.Reach s h) :
    ProtocolOk s ∧ Configured c s := by
  obtain ⟨s₀, hstart, hexec⟩ := hr
  have F := Setup.start_fresh hstart
  obtain ⟨I, C, _⟩ := exec_moves (P := fun _ _ => True) (fun _ _ _ _ _ _ _ _ => trivial)
    (F.protocolOk ht) F.configured trivial hexec
  exact ⟨I, C⟩

/-- A run goes on to a run. -/
theorem exec {s' : SpecDecodeScheduler} {h' : List Event} (hr : c.Reach s h)
    (hx : Exec machine s s' h') : c.Reach s' (h ++ h') := by
  obtain ⟨s₀, hstart, hexec⟩ := hr
  exact ⟨s₀, hstart, hexec.trans hx⟩

/-- **The state a model is issued in**: the call admits and plans what it has to, then issues. -/
theorem issued (ht : c.targetModel.isSome = true) {P : SpecDecodeScheduler → List Event → Prop}
    (hmove : ∀ s h s' e, ProtocolOk s → Configured c s → P s h → Move s s' e → P s' (h ++ e))
    (hr : c.Reach s h) (hP : P s h) {a : Act} {s' : SpecDecodeScheduler}
    (hs : machine.step s a = some s') {built : Model} {info : ModelMeta}
    (hi : .issued built info ∈ machine.obs s a s') :
    ∃ t, ProtocolOk t ∧ Configured c t ∧ P t (h ++ plannedBy s s' info) ∧
      Move t s' [.issued built info] := by
  obtain ⟨I, C⟩ := hr.inv ht
  obtain ⟨t, hchain, hissue⟩ := step_issued I hs hi
  obtain ⟨It, Ct, hPt⟩ := chain_moves hmove I C hP hchain
  exact ⟨t, It, Ct, hPt, It.move hissue⟩

end Setup.Reach

/-! ## 4. Without a target model -/

/-- The base scheduler's completions are autoregressive. -/
theorem LangScheduler.finishRequests_autoreg {ids : List Nat} {s s' : LangScheduler}
    (h : finishRequests ids s = some s')
    (hold : ∀ e ∈ s.lastFinishedEvents, e.taskType = .autoreg) :
    ∀ e ∈ s'.lastFinishedEvents, e.taskType = .autoreg := by
  refine finishRequests_of_finishRequest
    (P := fun t => ∀ e ∈ t.lastFinishedEvents, e.taskType = .autoreg)
    (fun t id r _ hold e he => ?_) h hold
  rcases List.mem_append.mp he with he | he
  · exact hold e he
  · rw [List.mem_singleton.mp he]

theorem LangScheduler.finishModel_autoreg {s s' : LangScheduler} {modelId : Nat}
    (h : s.finishModel modelId = some s') : ∀ e ∈ s'.lastFinishedEvents, e.taskType = .autoreg := by
  unfold finishModel at h
  split at h
  · cases h
  · next t ht =>
      cases h
      have hautoreg := finishRequests_autoreg ht fun e he => absurd he List.not_mem_nil
      exact hautoreg

namespace SpecDecodeScheduler

/-- **The call that finishes a speculative task** completes its recorded model. -/
theorem step_finished {s s' : SpecDecodeScheduler} {a : Act} {e : LangStepEvent}
    (I : ProtocolOk s) (h : machine.step s a = some s')
    (he : .finished e ∈ machine.obs s a s') (hty : e.taskType ≠ .autoreg) :
    ∃ (modelId : Nat) (info : ModelMeta) (req : LangRequest),
      s.modelMeta[modelId]? = some info ∧ info.requestId = req.requestId ∧
      s.activeRequests[req.requestId]? = some req ∧ s' = (s.completed modelId req info).2 ∧
      e = (s.completed modelId req info).1 ∧ machine.obs s a s' = [.finished e] := by
  cases a with
  | cycle =>
      obtain ⟨m, _, hm⟩ := List.mem_flatMap.mp he
      rcases List.mem_append.mp hm with hm | hm
      · unfold plannedBy at hm
        split at hm
        · cases List.mem_singleton.mp hm
        · cases hm
      · cases List.mem_singleton.mp hm
  | finishModel modelId =>
      cases hinfo : s.modelMeta[modelId]? with
      | none =>
          unfold machine step finishModel at h
          dsimp only at h
          rw [hinfo] at h
          obtain ⟨base, hbase, rfl⟩ := Option.map_eq_some_iff.mp h
          obtain ⟨ev, hev, heq⟩ := List.mem_map.mp he
          cases heq
          exact absurd (LangScheduler.finishModel_autoreg hbase _ hev) hty
      | some info =>
          obtain ⟨req, hid, hact, hs', hobs⟩ := step_finish I hinfo h
          rw [hobs] at he ⊢
          cases List.mem_singleton.mp he
          exact ⟨modelId, info, req, hinfo, hid, hact, hs', rfl, rfl⟩
  | _ => cases he

/-- What holds in a run without a target model: no round, no recorded model, no speculative
    event. -/
structure Fallback (c : Setup) (s : SpecDecodeScheduler) (h : List Event) : Prop where
  target : s.targetModel = none
  noModel : ∀ mid : Nat, s.modelMeta[mid]? = none
  noPlan : ∀ id n, s.planOf id n = none
  hints : s.hintUses = []
  tokens : s.ahasd.map AHASDIntegration.tokens = c.ahasd.map AHASDIntegration.tokens
  predictor : s.predictor = c.ahasd.bind AHASDIntegration.predictor
  accepted : s.vskm.stats.acceptedTokens = 0
  autoreg : ∀ e ∈ h, ∃ ev, e = .finished ev ∧ ev.taskType = .autoreg

/-- Two states that differ in the base scheduler and the memory side only. -/
structure SameSpeculation (s s' : SpecDecodeScheduler) : Prop where
  target : s'.targetModel = s.targetModel
  modelMeta : s'.modelMeta = s.modelMeta
  traces : s'.roundTraces = s.roundTraces
  hints : s'.hintUses = s.hintUses
  vskm : s'.vskm = s.vskm
  ahasd : s'.ahasd = s.ahasd

theorem Fallback.same {c : Setup} {s s' : SpecDecodeScheduler} {h e : List Event}
    (N : Fallback c s h) (hs : SameSpeculation s s')
    (he : ∀ x ∈ e, ∃ ev, x = .finished ev ∧ ev.taskType = .autoreg) : Fallback c s' (h ++ e) := by
  refine ⟨hs.target.trans N.target, ?_, ?_, hs.hints.trans N.hints, ?_, ?_,
    by rw [hs.vskm]; exact N.accepted, ?_⟩
  · rw [hs.modelMeta]
    exact N.noModel
  · intro id n
    have hp := N.noPlan id n
    unfold planOf at hp ⊢
    rw [hs.traces]
    exact hp
  · rw [hs.ahasd]
    exact N.tokens
  · have hp := N.predictor
    unfold SpecDecodeScheduler.predictor at hp ⊢
    rw [hs.ahasd]
    exact hp
  · intro x hx
    rcases List.mem_append.mp hx with hx | hx
    · exact N.autoreg x hx
    · exact he x hx

theorem Fallback.step {c : Setup} {s s' : SpecDecodeScheduler} {h : List Event} {a : Act}
    (N : Fallback c s h) (hs : machine.step s a = some s') :
    Fallback c s' (h ++ machine.obs s a s') := by
  have hquiet : ∀ x ∈ ([] : List Event), ∃ ev, x = .finished ev ∧ ev.taskType = .autoreg :=
    fun x hx => absurd hx List.not_mem_nil
  cases a with
  | cycle =>
      have htick : SameSpeculation s s.tickAndAdmit := by
        unfold tickAndAdmit
        dsimp only
        split <;> exact ⟨rfl, rfl, rfl, rfl, rfl, rfl⟩
      have hsame : SameSpeculation s s' := by
        unfold machine SpecDecodeScheduler.step cycle at hs
        dsimp only at hs
        rw [htick.target, N.target] at hs
        simp only [Option.isNone_none, if_true] at hs
        split at hs
        · obtain ⟨base, _, rfl⟩ := Option.map_eq_some_iff.mp hs
          exact ⟨N.target.symm, htick.modelMeta, htick.traces, htick.hints, htick.vskm,
            htick.ahasd⟩
        · cases hs
          exact htick
      have hnone : newModels s s' = [] := by
        unfold newModels
        rw [hsame.modelMeta]
        exact List.filterMap_eq_nil_iff.mpr fun m _ => by rw [N.noModel]; rfl
      refine N.same hsame ?_
      show ∀ x ∈ (newModels s s').flatMap _, _
      rw [hnone]
      exact hquiet
  | popModel =>
      obtain ⟨⟨model, t⟩, hpop, rfl⟩ := Option.map_eq_some_iff.mp hs
      unfold popModel at hpop
      obtain ⟨⟨m, base⟩, _, heq⟩ := Option.map_eq_some_iff.mp hpop
      cases heq
      exact N.same ⟨rfl, rfl, rfl, rfl, rfl, rfl⟩ hquiet
  | finishModel modelId =>
      unfold machine SpecDecodeScheduler.step finishModel at hs
      dsimp only at hs
      rw [N.noModel] at hs
      obtain ⟨base, hbase, rfl⟩ := Option.map_eq_some_iff.mp hs
      refine N.same ⟨rfl, rfl, rfl, rfl, rfl, rfl⟩ fun x hx => ?_
      obtain ⟨ev, hev, rfl⟩ := List.mem_map.mp hx
      exact ⟨ev, rfl, LangScheduler.finishModel_autoreg hbase ev hev⟩
  | npuProgress npuCycle =>
      cases hs
      refine ⟨N.target, N.noModel, N.noPlan, N.hints, ?_, ?_, N.accepted, ?_⟩
      · rw [← N.tokens]
        show (s.ahasd.map _).map _ = _
        rw [Option.map_map]
        exact Option.map_congr fun a _ => a.cycleNpuWithProgress_tokens npuCycle
      · rw [← N.predictor]
        show (s.ahasd.map _).bind _ = s.ahasd.bind _
        rw [Option.bind_map]
        exact Option.bind_congr fun a _ => a.cycleNpuWithProgress_predictor npuCycle
      · rw [show machine.obs s (.npuProgress npuCycle) _ = [] from rfl, List.append_nil]
        exact N.autoreg
  | dramPush cid req npuCycle =>
      cases hs
      exact N.same ⟨rfl, rfl, rfl, rfl, rfl, rfl⟩ hquiet
  | aauBypass cid req =>
      cases hs
      exact N.same ⟨rfl, rfl, rfl, rfl, rfl, rfl⟩ hquiet
  | ssrcBypass cid req =>
      unfold machine SpecDecodeScheduler.step at hs
      dsimp only at hs
      split at hs <;> cases hs <;> exact N.same ⟨rfl, rfl, rfl, rfl, rfl, rfl⟩ hquiet
  | drawId =>
      cases hs
      exact N.same ⟨rfl, rfl, rfl, rfl, rfl, rfl⟩ hquiet
  | drawAddress size =>
      cases hs
      exact N.same ⟨rfl, rfl, rfl, rfl, rfl, rfl⟩ hquiet

end SpecDecodeScheduler

/-- What the calls touch that issue and complete nothing of a round: the base scheduler, TVC's
    progress register and the memory side. -/
structure SpecDecodeScheduler.Sideways (s s' : SpecDecodeScheduler) : Prop where
  frame : ∃ base ahasd pim ssrc, s' = { s with
    toLangScheduler := base, ahasd := ahasd, pim := pim, ssrc := ssrc }
  beacon : s'.ahasd = s.ahasd ∨
    ∃ npuCycle, s'.ahasd = s.ahasd.map (·.cycleNpuWithProgress npuCycle)
  ssrc : ∃ g : SSRCCoordinator → SSRCCoordinator, s'.ssrc = s.ssrc.map g ∧
    ∀ c, SSRCCoordinator.SameRounds c (g c)

/-- The calls but `cycle` and the completion of a recorded model. -/
theorem SpecDecodeScheduler.step_sideways {s s' : SpecDecodeScheduler} {a : Act}
    (hs : SpecDecodeScheduler.machine.step s a = some s') (hcycle : a ≠ .cycle)
    (hstray : ∀ modelId : Nat, a = .finishModel modelId → s.modelMeta[modelId]? = none) :
    Sideways s s' := by
  have hsame := s.ssrc_same
  cases a with
  | cycle => exact absurd rfl hcycle
  | popModel =>
      obtain ⟨⟨model, t⟩, hpop, rfl⟩ := Option.map_eq_some_iff.mp hs
      unfold SpecDecodeScheduler.popModel at hpop
      obtain ⟨⟨m, base⟩, _, heq⟩ := Option.map_eq_some_iff.mp hpop
      cases heq
      exact ⟨⟨_, _, _, _, rfl⟩, .inl rfl, hsame⟩
  | finishModel modelId =>
      unfold SpecDecodeScheduler.machine SpecDecodeScheduler.step
        SpecDecodeScheduler.finishModel at hs
      dsimp only at hs
      rw [hstray modelId rfl] at hs
      obtain ⟨base, hbase, rfl⟩ := Option.map_eq_some_iff.mp hs
      exact ⟨⟨_, _, _, _, rfl⟩, .inl rfl, hsame⟩
  | ssrcBypass cid req =>
      unfold SpecDecodeScheduler.machine SpecDecodeScheduler.step at hs
      dsimp only at hs
      split at hs
      · next p c hp hc =>
          cases hs
          refine ⟨⟨_, _, _, _, rfl⟩, .inl rfl, fun c => (p.trySsrcBypass c cid req).2.2, ?_,
            fun c => (p.trySsrcBypass_frame cid req c).2⟩
          rw [hc]
          rfl
      · cases hs
        exact ⟨⟨_, _, _, _, rfl⟩, .inl rfl, hsame⟩
  | npuProgress npuCycle =>
      cases hs
      exact ⟨⟨_, _, _, _, rfl⟩, .inr ⟨npuCycle, rfl⟩, hsame⟩
  | dramPush cid req npuCycle =>
      cases hs
      exact ⟨⟨_, _, _, _, rfl⟩, .inl rfl, hsame⟩
  | aauBypass cid req =>
      cases hs
      exact ⟨⟨_, _, _, _, rfl⟩, .inl rfl, hsame⟩
  | drawId =>
      cases hs
      exact ⟨⟨_, _, _, _, rfl⟩, .inl rfl, hsame⟩
  | drawAddress size =>
      cases hs
      exact ⟨⟨_, _, _, _, rfl⟩, .inl rfl, hsame⟩

/-- They leave VSKM and the deferrals as they are, but for what the memory side notes. -/
theorem SpecDecodeScheduler.Sideways.untouched {s s' : SpecDecodeScheduler} (h : Sideways s s') :
    s'.vskm = s.vskm ∧ s'.ssrcDeferredRound = s.ssrcDeferredRound ∧
      ∃ g : SSRCCoordinator → SSRCCoordinator, s'.ssrc = s.ssrc.map g ∧
        ∀ c, SSRCCoordinator.SameRounds c (g c) := by
  obtain ⟨base, ahasd, pim, ssrc, heq⟩ := h.frame
  exact ⟨by rw [heq], by rw [heq], h.ssrc⟩

theorem SpecDecodeScheduler.step_untouched {s s' : SpecDecodeScheduler} {a : Act}
    (hs : SpecDecodeScheduler.machine.step s a = some s') (hcycle : a ≠ .cycle)
    (hstray : ∀ modelId : Nat, a = .finishModel modelId → s.modelMeta[modelId]? = none) :
    s'.vskm = s.vskm ∧ s'.ssrcDeferredRound = s.ssrcDeferredRound ∧
      ∃ g : SSRCCoordinator → SSRCCoordinator, s'.ssrc = s.ssrc.map g ∧
        ∀ c, SSRCCoordinator.SameRounds c (g c) :=
  (SpecDecodeScheduler.step_sideways hs hcycle hstray).untouched

/-- Without a target model every call is of this kind. -/
theorem SpecDecodeScheduler.Fallback.sideways {c : Setup} {s s' : SpecDecodeScheduler}
    {h : List Event} {a : Act} (N : SpecDecodeScheduler.Fallback c s h)
    (hs : SpecDecodeScheduler.machine.step s a = some s') : Sideways s s' := by
  by_cases hcycle : a = .cycle
  · subst hcycle
    have hsame := s.ssrc_same
    have htick : s.tickAndAdmit.targetModel = none ∧
        s.tickAndAdmit = { s with toLangScheduler := s.tickAndAdmit.toLangScheduler } := by
      unfold SpecDecodeScheduler.tickAndAdmit
      dsimp only
      split <;> exact ⟨N.target, rfl⟩
    obtain ⟨htarget, hframe⟩ := htick
    unfold SpecDecodeScheduler.machine SpecDecodeScheduler.step SpecDecodeScheduler.cycle at hs
    dsimp only at hs
    rw [htarget] at hs
    simp only [Option.isNone_none, if_true] at hs
    split at hs
    · obtain ⟨base, _, rfl⟩ := Option.map_eq_some_iff.mp hs
      rw [hframe]
      exact ⟨⟨base, _, _, _, by rw [N.target]⟩, .inl rfl, hsame⟩
    · cases hs
      rw [hframe]
      exact ⟨⟨_, _, _, _, rfl⟩, .inl rfl, hsame⟩
  · exact SpecDecodeScheduler.step_sideways hs hcycle fun modelId _ => N.noModel modelId

/-- Without a target model no call touches them. -/
theorem SpecDecodeScheduler.Fallback.untouched {c : Setup} {s s' : SpecDecodeScheduler}
    {h : List Event} {a : Act} (N : SpecDecodeScheduler.Fallback c s h)
    (hs : SpecDecodeScheduler.machine.step s a = some s') :
    s'.vskm = s.vskm ∧ s'.ssrcDeferredRound = s.ssrcDeferredRound ∧
      ∃ g : SSRCCoordinator → SSRCCoordinator, s'.ssrc = s.ssrc.map g ∧
        ∀ c, SSRCCoordinator.SameRounds c (g c) :=
  (N.sideways hs).untouched

/-- **Without a target model nothing speculative happens.** -/
theorem Setup.Reach.fallback {c : Setup} {s : SpecDecodeScheduler} {h : List Event}
    (ht : c.targetModel.isSome = false) (hr : c.Reach s h) : SpecDecodeScheduler.Fallback c s h := by
  obtain ⟨s₀, hstart, hexec⟩ := hr
  have F := Setup.start_fresh hstart
  refine hexec.invariant (P := fun s h => SpecDecodeScheduler.Fallback c s h) ?_
    fun s h a s' N hs => N.step hs
  refine ⟨?_, F.noModel, F.noPlan, F.hints, by rw [F.ahasd], ?_, F.vskm.2, fun e he => by cases he⟩
  · rw [F.target]
    cases hc : c.targetModel with
    | none => rfl
    | some t => rw [hc] at ht; cases ht
  · unfold SpecDecodeScheduler.predictor
    rw [F.ahasd]

/-- So what is speculative is seen only with a target attached. -/
theorem Setup.Reach.speculative {c : Setup} {s : SpecDecodeScheduler} {h : List Event}
    (hr : c.Reach s h) {x : Event} (hx : x ∈ h)
    (hspec : ∀ ev, x = .finished ev → ev.taskType ≠ .autoreg) : c.targetModel.isSome = true := by
  by_contra ht
  obtain ⟨ev, rfl, hauto⟩ := (hr.fallback (Bool.not_eq_true _ ▸ ht)).autoreg x hx
  exact hspec ev rfl hauto

open SpecDecodeScheduler in
/-- **A call that shows a finished task of the protocol completes a recorded model**, with a target
    attached. -/
theorem Setup.Reach.finished {c : Setup} {s s' : SpecDecodeScheduler} {h : List Event} {a : Act}
    {e : LangStepEvent} (hr : c.Reach s h) (hs : machine.step s a = some s')
    (he : .finished e ∈ machine.obs s a s') (hty : e.taskType ≠ .autoreg) :
    c.targetModel.isSome = true ∧ ∃ (modelId : Nat) (info : ModelMeta) (req : LangRequest),
      s.modelMeta[modelId]? = some info ∧ info.requestId = req.requestId ∧
      s.activeRequests[req.requestId]? = some req ∧ s' = (s.completed modelId req info).2 ∧
      e = (s.completed modelId req info).1 := by
  have ht := (hr.exec (.one hs)).speculative (List.mem_append_right h he) fun ev hev => by
    cases hev
    exact hty
  obtain ⟨mid, info, req, hinfo, hid, hact, hs', heq, _⟩ :=
    step_finished (hr.inv ht).1 hs he hty
  exact ⟨ht, mid, info, req, hinfo, hid, hact, hs', heq⟩

end Ahasd
