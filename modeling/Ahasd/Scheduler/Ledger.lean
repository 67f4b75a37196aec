/-
  File:      Ahasd/Scheduler/Ledger.lean
  Subject:   WHAT A COMPLETION BOOKS: the scheduler's acceptance tally and TVC's cycle tables.

  Both verifications of a round go through `sample_accepted_length` and `record_verify_result`, and
  the pre-verification is booked there like a full one.

  * `tally`, `tables`: the two books; `SameBooks`, `Rule.sameBooks`, `Setup.Reach.step_books`: only
    the completion of a recorded model changes them;
  * `TallyOk`: the tally counts both kinds of verifications; **`tally_iff_no_preVerify`**: it
    describes the full ones, and gives the coordinator's ratio, exactly when no pre-verification has
    completed;
  * `Recorded`: the tables are the windows of the completed tasks;
    **`tables_iff_preVerify_unseen`**: they are exactly when every pre-verification that completes
    finds the verifications' table full of the record it adds.
-/
import Ahasd.Scheduler.Accounting
import Ahasd.Scheduler.Predictor

namespace Ahasd

open Std Transition OrderedMap

/-! ## 1. The books -/

namespace AHASDIntegration

variable (a : AHASDIntegration)

/-- The control the coordinator's calls reach. -/
def control : Option TVC :=
  if a.config.enableTvc then a.tvc else none

@[simp] theorem updateTvc_control (f : TVC → TVC) : (a.updateTvc f).control = a.control.map f := by
  unfold updateTvc control
  cases hon : a.config.enableTvc <;> cases htvc : a.tvc <;> simp [hon, htvc]

/-- What a call into TVC keeps of it. -/
theorem updateTvc_keeps {β : Type} {p : TVC → β} {f : TVC → TVC} (hf : ∀ t, p (f t) = p t) :
    (a.updateTvc f).control.map p = a.control.map p := by
  rw [updateTvc_control, Option.map_map]
  exact Option.map_congr fun t _ => hf t

@[simp] theorem updateEdc_control (full : Bool) (accepted : Nat) :
    (a.updateEdc full accepted).control = a.control := by
  unfold updateEdc
  split <;> rfl

@[simp] theorem decideDraftLength_control (maxK : Nat) (hint : ℚ) :
    (a.decideDraftLength maxK hint).2.control = a.control := by
  unfold decideDraftLength
  dsimp only
  split <;> rfl

@[simp] theorem recordVerifyResult_control (full : Bool) (k accepted cycles kvLength : Nat)
    (final : Bool) : (a.recordVerifyResult full k accepted cycles kvLength final).control =
      a.control.map (·.recordNpuVerification cycles kvLength) := by
  unfold recordVerifyResult
  dsimp only
  rw [updateTvc_control, updateEdc_control]
  cases final <;> rfl

theorem control_of {a : AHASDIntegration} {t : TVC} (hon : a.config.enableTvc = true)
    (htvc : a.tvc = some t) : a.control = some t := by
  unfold control
  rw [hon]
  exact htvc

/-- What TVC's decision keeps of it: the decision moves counters. -/
theorem decidePreVerify_keeps {β : Type} {p : TVC → β} (kvLength pendingDraftCount : Nat)
    (hp : ∀ (t : TVC) (decisions successes idles : Nat),
      p { t with
          totalDecisions := decisions
          successfulPreverifications := successes
          preventedNpuIdles := idles } = p t) :
    (a.decidePreVerify kvLength pendingDraftCount).2.control.map p = a.control.map p := by
  unfold decidePreVerify
  split
  · next t hon htvc =>
      obtain ⟨successes, hframe⟩ := t.shouldInsertPreverification_frame kvLength pendingDraftCount
      generalize t.shouldInsertPreverification kvLength pendingDraftCount = r at hframe
      obtain ⟨decision, t'⟩ := r
      dsimp only at hframe ⊢
      have hdecided : p t' = p t := by
        rw [hframe]
        exact hp t _ _ _
      have hidle : p t'.recordPreventedIdle = p t := by
        rw [hframe]
        exact hp t _ _ _
      split
      · rfl
      · rw [control_of hon htvc, Option.map_some]
        split
        · rw [← hdecided]
          exact congrArg (Option.map p) (control_of (a := { a with tvc := t' }) hon rfl)
        · split
          · rw [← hdecided]
            exact congrArg (Option.map p) (control_of (a := { a with tvc := t' }) hon rfl)
          · rw [← hidle]
            exact congrArg (Option.map p)
              (control_of (a := { a with tvc := t'.recordPreventedIdle }) hon rfl)
  · rfl

end AHASDIntegration

namespace SpecDecodeScheduler

/-- The tally of the samples. -/
structure Tally where
  samples : Nat
  accepted : Nat
  drafted : Nat
  deriving DecidableEq

/-- The scheduler's tally. -/
def tally (s : SpecDecodeScheduler) : Tally :=
  ⟨s.acceptSamples, s.acceptSum, s.acceptKSum⟩

/-- The pre-verification control the scheduler's calls reach. -/
def control (s : SpecDecodeScheduler) : Option TVC :=
  s.ahasd.bind AHASDIntegration.control

/-- Its cycle tables. -/
def tables (s : SpecDecodeScheduler) : Option (Nat × List CycleRecord × List CycleRecord) :=
  s.control.map TVC.tables

/-- The two states have the same books. -/
structure SameBooks (s s' : SpecDecodeScheduler) : Prop where
  tally : s'.tally = s.tally
  tables : s'.tables = s.tables
  tokens : s'.ahasd.map AHASDIntegration.tokens = s.ahasd.map AHASDIntegration.tokens

theorem SameBooks.refl (s : SpecDecodeScheduler) : SameBooks s s := ⟨rfl, rfl, rfl⟩

theorem SameBooks.trans {s t u : SpecDecodeScheduler} (h : SameBooks s t) (h' : SameBooks t u) :
    SameBooks s u :=
  ⟨h'.tally.trans h.tally, h'.tables.trans h.tables, h'.tokens.trans h.tokens⟩

/-- A call into the coordinator that counts no tokens. -/
theorem tokens_same {s s' : SpecDecodeScheduler} {f : AHASDIntegration → AHASDIntegration}
    (h : s'.ahasd = s.ahasd.map f) (hf : ∀ a, (f a).tokens = a.tokens) :
    s'.ahasd.map AHASDIntegration.tokens = s.ahasd.map AHASDIntegration.tokens := by
  rw [h, Option.map_map]
  exact Option.map_congr fun a _ => hf a

theorem control_congr {s s' : SpecDecodeScheduler} (h : s'.ahasd = s.ahasd) :
    s'.control = s.control := by
  unfold control
  rw [h]

/-- What a call into the coordinator does to TVC, it does to the scheduler's. -/
theorem control_map {β : Type} {p : TVC → β} {s s' : SpecDecodeScheduler}
    {f : AHASDIntegration → AHASDIntegration} {g : β → β} (h : s'.ahasd = s.ahasd.map f)
    (hf : ∀ a, (f a).control.map p = (a.control.map p).map g) :
    s'.control.map p = (s.control.map p).map g := by
  unfold control
  rw [h]
  cases s.ahasd with
  | none => rfl
  | some a => exact hf a

/-- What a call into the coordinator keeps of TVC, it keeps of the scheduler's. -/
theorem control_keeps {β : Type} {p : TVC → β} {s s' : SpecDecodeScheduler}
    {f : AHASDIntegration → AHASDIntegration} (h : s'.ahasd = s.ahasd.map f)
    (hf : ∀ a, (f a).control.map p = a.control.map p) : s'.control.map p = s.control.map p := by
  rw [control_map (g := id) h fun a => by rw [hf, Option.map_id_fun, id], Option.map_id_fun, id]

theorem tables_congr {s s' : SpecDecodeScheduler} (h : s'.ahasd = s.ahasd) : s'.tables = s.tables :=
  congrArg (Option.map TVC.tables) (control_congr h)

/-- Advancing the progress register leaves the tables alone. -/
theorem cycleNpuWithProgress_tables (a : AHASDIntegration) (npuCycle : Nat) :
    (a.cycleNpuWithProgress npuCycle).control.map TVC.tables = a.control.map TVC.tables :=
  a.updateTvc_keeps fun t => t.updateNpuProgress_tables npuCycle

theorem decidePreVerify_tables (s : SpecDecodeScheduler) (req : LangRequest) :
    (s.decidePreVerify req).2.tables = s.tables := by
  have hconsult : ∀ a : AHASDIntegration, ((a.startNpuTask s.cycleCount).decidePreVerify
      req.currentLength req.plannedDraftLength).2.control.map TVC.tables =
        a.control.map TVC.tables := by
    intro a
    rw [AHASDIntegration.decidePreVerify_keeps _ _ _ fun _ _ _ _ => rfl]
    exact a.updateTvc_keeps fun t => t.startNpuTask_tables s.cycleCount
  unfold decidePreVerify
  cases ha : s.ahasd with
  | none => rfl
  | some a =>
      dsimp only
      split
      · unfold tables control
        rw [ha]
        exact hconsult a
      · rfl

theorem Prepared.sameBooks {s s₁ : SpecDecodeScheduler} {req req' : LangRequest}
    {model : LanguageModel} {seqLength : Nat} {info : ModelMeta}
    (h : Prepared s req s₁ req' model seqLength info) : SameBooks s s₁ := by
  obtain ⟨tvc, htvc, hsame⟩ := h.ahasd_map
  refine ⟨by rw [h.frame]; rfl, ?_, tokens_same htvc fun a => (hsame a).2.1⟩
  have hahasd := h.ahasd_eq
  split at hahasd
  · exact (tables_congr hahasd).trans (s.decidePreVerify_tables req)
  · exact tables_congr hahasd

/-- **Only completions change the books.** -/
theorem Rule.sameBooks {s s' : SpecDecodeScheduler} {e : List Event} (h : Rule s s' e)
    (hno : ∀ ev, .finished ev ∉ e) : SameBooks s s' := by
  cases h with
  | tick => exact ⟨rfl, rfl, rfl⟩
  | admitOne r rest hq ht => exact ⟨rfl, rfl, rfl⟩
  | unstall id => exact ⟨rfl, rfl, rfl⟩
  | pop model rest hq => exact ⟨rfl, rfl, rfl⟩
  | memory f g hf hg => exact ⟨rfl, rfl, rfl⟩
  | draw g hg => exact ⟨rfl, rfl, rfl⟩
  | orphan modelId info hinfo hact => exact ⟨rfl, rfl, rfl⟩
  | stray modelId base hinfo hbase => exact ⟨rfl, rfl, rfl⟩
  | beacon npuCycle =>
      exact ⟨rfl, control_keeps rfl fun a => cycleNpuWithProgress_tables a npuCycle,
        tokens_same rfl fun a => a.cycleNpuWithProgress_tokens npuCycle⟩
  | plan req hact hrun hphase =>
      obtain ⟨ssrc, deferred, heq⟩ := s.planRound_eq req
      rw [heq]
      refine ⟨rfl, control_keeps rfl fun a => ?_, tokens_same rfl (s.planAhasd_tokens req)⟩
      unfold planAhasd
      split
      · rw [AHASDIntegration.decideDraftLength_control]
      · rfl
  | issue s₁ req req' model seqLength info built g hact hrun hprep hgen =>
      obtain ⟨htally, htables, htokens⟩ := hprep.sameBooks
      exact ⟨htally, htables, htokens⟩
  | finish modelId info req hinfo hact => exact absurd (List.mem_singleton.mpr rfl) (hno _)

/-- What a finished task adds to the tally: the two verifications sample. -/
def taskTally (s : SpecDecodeScheduler) (req : LangRequest) (info : ModelMeta) (t : Tally) : Tally :=
  match info.taskType with
  | .verify | .preVerify =>
      ⟨t.samples + 1, t.accepted + s.acceptedBy req info, t.drafted + max 1 info.draftLengthAtIssue⟩
  | _ => t

/-- What a finished task does to the cycle tables. -/
def taskTables (s : SpecDecodeScheduler) (req : LangRequest) (info : ModelMeta)
    (t : Nat × List CycleRecord × List CycleRecord) : Nat × List CycleRecord × List CycleRecord :=
  let cycles := s.elapsedCycles info.issueCycle
  match info.taskType with
  | .verify =>
      let length := (s.applyVerifyResult req (s.acceptedBy req info)).currentLength
      (t.1, Window.push t.1 t.2.1 ⟨cycles, length⟩, t.2.2)
  | .preVerify =>
      (t.1, Window.push t.1 t.2.1 ⟨cycles, req.currentLength⟩,
        Window.push t.1 t.2.2 ⟨cycles, max 1 info.draftLengthAtIssue⟩)
  | _ => t

section Completed

variable (s : SpecDecodeScheduler) (modelId : Nat) (req : LangRequest) (info : ModelMeta)

/-- The sample is what the verification accepts: it never exceeds the draft. -/
theorem tallied_tally : (s.tallied req (max 1 info.draftLengthAtIssue)).tally =
    ⟨s.tally.samples + 1, s.tally.accepted + s.acceptedBy req info,
      s.tally.drafted + max 1 info.draftLengthAtIssue⟩ := by
  have hle := s.acceptModel.sample_le req.requestId req.specRound (max 1 info.draftLengthAtIssue)
    (computeEntropyHint req)
  unfold acceptedBy
  dsimp only
  rw [Nat.min_eq_right hle]
  rfl

theorem finishTask_tally : (s.finishTask req info).2.tally = s.taskTally req info s.tally := by
  unfold finishTask taskTally
  dsimp only
  cases info.taskType with
  | prompt => rfl
  | draft => rfl
  | autoreg => rfl
  | preVerify =>
      dsimp only
      rw [finishPreVerify_eq]
      exact s.tallied_tally req info
  | verify =>
      dsimp only
      obtain ⟨stalls, ssrc, deferred, h⟩ := s.finishVerify_eq req info (completionEvent req info)
      rw [h]
      dsimp only
      split <;> exact s.tallied_tally req info

/-- **A completion tallies its sample.** -/
theorem completed_tally :
    (s.completed modelId req info).2.tally = s.taskTally req info s.tally :=
  finishTask_tally { s with modelMeta := s.modelMeta.erase modelId, lastFinishedEvents := [] } req info

theorem taskAhasd_tables (a : AHASDIntegration) :
    (s.taskAhasd req info a).control.map TVC.tables =
      (a.control.map TVC.tables).map (s.taskTables req info) := by
  unfold taskAhasd taskTables
  dsimp only
  cases info.taskType with
  | prompt => exact Option.map_id'.symm
  | autoreg => exact Option.map_id'.symm
  | draft =>
      dsimp only
      rw [Option.map_id']
      split
      · exact AHASDIntegration.updateTvc_keeps _ fun t => t.recordPimDrafting_tables _ 1
      · rfl
  | verify =>
      dsimp only
      rw [AHASDIntegration.recordVerifyResult_control, Option.map_map, Option.map_map]
      rfl
  | preVerify =>
      dsimp only
      unfold AHASDIntegration.recordPreVerify
      rw [AHASDIntegration.recordVerifyResult_control, AHASDIntegration.updateTvc_control,
        Option.map_map, Option.map_map, Option.map_map]
      rfl

/-- **A completion records its cycles.** -/
theorem completed_tables :
    (s.completed modelId req info).2.tables = s.tables.map (s.taskTables req info) :=
  control_map (s.completed_ahasd modelId req info) (s.taskAhasd_tables req info)

end Completed

end SpecDecodeScheduler

open SpecDecodeScheduler in
/-- **A call completes a recorded model, or leaves the books alone** and verifies nothing. -/
theorem Setup.Reach.step_books {c : Setup} {s s' : SpecDecodeScheduler} {h : List Event} {a : Act}
    (hr : c.Reach s h) (hs : machine.step s a = some s') :
    (∃ (modelId : Nat) (info : ModelMeta) (req : LangRequest), a = .finishModel modelId ∧
      s.modelMeta[modelId]? = some info ∧ info.requestId = req.requestId ∧
        s.activeRequests[req.requestId]? = some req ∧ s' = (s.completed modelId req info).2 ∧
        machine.obs s a s' = [.finished (s.completed modelId req info).1]) ∨
      SameBooks s s' ∧ ∀ ev, .finished ev ∈ machine.obs s a s' → ev.taskType = .autoreg := by
  cases ht : c.targetModel.isSome with
  | false =>
      have N := hr.fallback ht
      obtain ⟨⟨base, ahasd, pim, ssrc, hframe⟩, hbeacon, _⟩ := N.sideways hs
      refine .inr ⟨?_, fun ev hev => ?_⟩
      · have htally : s'.tally = s.tally := by rw [hframe]; rfl
        rcases hbeacon with hsame | ⟨npuCycle, hsame⟩
        · exact ⟨htally, tables_congr hsame, by rw [hsame]⟩
        · exact ⟨htally, control_keeps hsame fun a => cycleNpuWithProgress_tables a npuCycle,
            tokens_same hsame fun a => a.cycleNpuWithProgress_tokens npuCycle⟩
      · obtain ⟨ev', heq, hauto⟩ := (N.step hs).autoreg _ (List.mem_append_right h hev)
        cases heq
        exact hauto
  | true =>
      obtain ⟨I, C⟩ := hr.inv ht
      have hrules : ∀ t t' e, ProtocolOk t → Configured c t → SameBooks s t → Rule t t' e →
          (∀ ev, .finished ev ∉ e) → SameBooks s t' := by
        intro t t' e _ _ hsame hrule hno
        exact hsame.trans (hrule.sameBooks hno)
      rcases step_completes_rules hrules I C (.refl s) hs with hdone | ⟨hsame, hno⟩
      · exact .inl hdone
      · exact .inr ⟨hsame, fun ev hev => absurd hev (hno ev)⟩

/-! ## 2. The tally -/

/-- The finished task of an event, if it is of the kind. -/
def Event.finishedTask (ty : LangTaskType) : Event → Option LangStepEvent
  | .finished e => if e.taskType = ty then some e else none
  | _ => none

/-- The tasks of a kind a history finished, in order. -/
def finishedOf (ty : LangTaskType) (h : List Event) : List LangStepEvent :=
  h.filterMap (Event.finishedTask ty)

/-- The tokens the tasks checked. -/
def checkedTokens (l : List LangStepEvent) : Nat :=
  (l.map fun e => max 1 e.draftLength).sum

/-- The tokens the tasks accepted. -/
def acceptedTokens (l : List LangStepEvent) : Nat :=
  (l.map LangStepEvent.acceptedLength).sum

/-- `accept_ratio` of `print_acceptance_stats`. -/
def SpecDecodeScheduler.acceptRatio (s : SpecDecodeScheduler) : ℚ :=
  if s.acceptKSum > 0 then (s.acceptSum : ℚ) / s.acceptKSum else 0

/-- `acceptance_rate`. -/
def AHASDIntegration.acceptanceRate (a : AHASDIntegration) : ℚ :=
  if a.totalVerifiedDraftTokens = 0 then 0
  else (a.totalAcceptedTokens : ℚ) / a.totalVerifiedDraftTokens

section History

variable (ty : LangTaskType) (h : List Event)

theorem finishedOf_append (h' : List Event) :
    finishedOf ty (h ++ h') = finishedOf ty h ++ finishedOf ty h' :=
  List.filterMap_append

theorem finishedOf_finished (e : LangStepEvent) :
    finishedOf ty [.finished e] = if e.taskType = ty then [e] else [] := by
  unfold finishedOf
  by_cases hty : e.taskType = ty <;> simp [Event.finishedTask, hty]

/-- Where every finished task is autoregressive, none is of a round. -/
theorem finishedOf_autoreg {h : List Event}
    (hauto : ∀ ev, .finished ev ∈ h → ev.taskType = .autoreg) (hty : ty ≠ .autoreg) :
    finishedOf ty h = [] := by
  refine List.filterMap_eq_nil_iff.mpr fun x hx => ?_
  cases x with
  | issued built info => rfl
  | planned requestId round hint preds => rfl
  | finished e =>
      refine if_neg fun heq => hty ?_
      rw [← heq]
      exact hauto e hx

@[simp] theorem checkedTokens_append (l l' : List LangStepEvent) :
    checkedTokens (l ++ l') = checkedTokens l + checkedTokens l' := by
  simp [checkedTokens]

@[simp] theorem acceptedTokens_append (l l' : List LangStepEvent) :
    acceptedTokens (l ++ l') = acceptedTokens l + acceptedTokens l' := by
  simp [acceptedTokens]

end History

namespace SpecDecodeScheduler

/-- **The tally is that of both kinds of verifications**; the coordinator's counters are those of
    the full ones. -/
structure TallyOk (s : SpecDecodeScheduler) (h : List Event) : Prop where
  samples : s.acceptSamples =
    (finishedOf .verify h).length + (finishedOf .preVerify h).length
  drafted : s.acceptKSum =
    checkedTokens (finishedOf .verify h) + checkedTokens (finishedOf .preVerify h)
  accepted : s.acceptSum =
    acceptedTokens (finishedOf .verify h) + acceptedTokens (finishedOf .preVerify h)
  coordinator : ∀ a, s.ahasd = some a →
    a.totalVerifiedDraftTokens = checkedTokens (finishedOf .verify h) ∧
      a.totalAcceptedTokens = acceptedTokens (finishedOf .verify h)

theorem TallyOk.same {s s' : SpecDecodeScheduler} {h e : List Event} (T : TallyOk s h)
    (hs : SameBooks s s') (he : ∀ ev, .finished ev ∈ e → ev.taskType = .autoreg) :
    TallyOk s' (h ++ e) := by
  have hverify := finishedOf_autoreg .verify he (by decide)
  have hpre := finishedOf_autoreg .preVerify he (by decide)
  obtain ⟨hsamples, haccepted, hdrafted⟩ := Tally.mk.inj hs.tally
  refine ⟨?_, ?_, ?_, fun a' ha' => ?_⟩ <;>
    rw [finishedOf_append, hverify, List.append_nil]
  · rw [finishedOf_append, hpre, List.append_nil, hsamples]
    exact T.samples
  · rw [finishedOf_append, hpre, List.append_nil, hdrafted]
    exact T.drafted
  · rw [finishedOf_append, hpre, List.append_nil, haccepted]
    exact T.accepted
  · have htokens := hs.tokens
    rw [ha', Option.map_some] at htokens
    obtain ⟨a, ha, heq⟩ := Option.map_eq_some_iff.mp htokens.symm
    obtain ⟨_, hchecked, hkept, _⟩ := AHASDIntegration.TokenCounters.mk.inj heq
    rw [← hchecked, ← hkept]
    exact T.coordinator a ha

/-- What a completion adds to the tally and to the coordinator's counters: what its event says. -/
theorem completed_counts (s : SpecDecodeScheduler) (modelId : Nat) (req : LangRequest)
    (info : ModelMeta) :
    let e : List Event := [.finished (s.completed modelId req info).1]
    let s' := (s.completed modelId req info).2
    s'.tally =
      ⟨s.tally.samples + ((finishedOf .verify e).length + (finishedOf .preVerify e).length),
        s.tally.accepted +
          (acceptedTokens (finishedOf .verify e) + acceptedTokens (finishedOf .preVerify e)),
        s.tally.drafted +
          (checkedTokens (finishedOf .verify e) + checkedTokens (finishedOf .preVerify e))⟩ ∧
      ∀ t, (s.taskTokens req info t).verified = t.verified + checkedTokens (finishedOf .verify e) ∧
        (s.taskTokens req info t).accepted = t.accepted + acceptedTokens (finishedOf .verify e) := by
  obtain ⟨_, hty, _, hlength, _, haccepted, _⟩ := s.completed_event modelId req info
  dsimp only
  rw [completed_tally]
  generalize (s.completed modelId req info).1 = ev at hty hlength haccepted ⊢
  rw [finishedOf_finished, finishedOf_finished, hty]
  unfold taskTally taskTokens
  cases hkind : info.taskType with
  | verify =>
      rw [hkind] at haccepted
      simp [checkedTokens, acceptedTokens, hlength, haccepted (.inl rfl)]
  | preVerify =>
      rw [hkind] at haccepted
      simp [checkedTokens, acceptedTokens, hlength, haccepted (.inr rfl)]
  | prompt => simp [checkedTokens, acceptedTokens]
  | draft => simp [checkedTokens, acceptedTokens]
  | autoreg => simp [checkedTokens, acceptedTokens]

/-- **A completion tallies its task** where the history has it. -/
theorem TallyOk.complete {s : SpecDecodeScheduler} {h : List Event} (T : TallyOk s h)
    (modelId : Nat) (req : LangRequest) (info : ModelMeta) :
    TallyOk (s.completed modelId req info).2
      (h ++ [.finished (s.completed modelId req info).1]) := by
  obtain ⟨htally, htokens⟩ := s.completed_counts modelId req info
  obtain ⟨hsamples, haccepted, hdrafted⟩ := Tally.mk.inj htally
  have hdone := T.samples
  have hchecked := T.drafted
  have hkept := T.accepted
  refine ⟨?_, ?_, ?_, fun a' ha' => ?_⟩
  · rw [finishedOf_append, finishedOf_append, List.length_append, List.length_append, hsamples]
    show s.acceptSamples + _ = _
    omega
  · rw [finishedOf_append, finishedOf_append, checkedTokens_append, checkedTokens_append, hdrafted]
    show s.acceptKSum + _ = _
    omega
  · rw [finishedOf_append, finishedOf_append, acceptedTokens_append, acceptedTokens_append,
      haccepted]
    show s.acceptSum + _ = _
    omega
  · rw [completed_ahasd] at ha'
    obtain ⟨a, ha, rfl⟩ := Option.map_eq_some_iff.mp ha'
    have hcounters := s.taskAhasd_tokens req info a
    obtain ⟨hverified, haccepted⟩ := htokens a.tokens
    obtain ⟨hv, ha'⟩ := T.coordinator a ha
    rw [← hcounters] at hverified haccepted
    rw [finishedOf_append, checkedTokens_append, acceptedTokens_append, ← hv, ← ha']
    exact ⟨hverified, haccepted⟩

/-- What the tally is read as: the completed full verifications, and the coordinator's ratio. -/
structure TalliesVerifications (s : SpecDecodeScheduler) (h : List Event) : Prop where
  samples : s.acceptSamples = (finishedOf .verify h).length
  drafted : s.acceptKSum = checkedTokens (finishedOf .verify h)
  accepted : s.acceptSum = acceptedTokens (finishedOf .verify h)
  ratio : ∀ a, s.ahasd = some a → s.acceptRatio = a.acceptanceRate

end SpecDecodeScheduler

section

open SpecDecodeScheduler

variable {c : Setup} {s : SpecDecodeScheduler} {h : List Event}

/-- The tally in every reachable state. -/
theorem Setup.Reach.tally (hr : c.Reach s h) : TallyOk s h := by
  obtain ⟨s₀, hstart, hexec⟩ := hr
  have hreach : ∀ {t k}, Exec machine s₀ t k → c.Reach t k := fun hx => ⟨s₀, hstart, hx⟩
  refine (hexec.invariant (P := fun t k => c.Reach t k ∧ TallyOk t k) ⟨hreach .start, ?_⟩ ?_).2
  · have F := Setup.start_fresh hstart
    obtain ⟨base, _, rfl⟩ := Setup.start_eq hstart
    refine ⟨rfl, rfl, rfl, fun a ha => ?_⟩
    rw [F.ahasd] at ha
    unfold Setup.ahasd at ha
    split at ha
    · cases ha
      exact ⟨rfl, rfl⟩
    · cases ha
  · rintro t k a t' ⟨hr, T⟩ hs
    refine ⟨hr.exec (.one hs), ?_⟩
    rcases hr.step_books hs with ⟨modelId, info, req, _, _, _, _, rfl, hobs⟩ | ⟨hsame, hauto⟩
    · rw [hobs]
      exact T.complete modelId req info
    · exact T.same hsame hauto

/-- **The tally describes the full verifications, and gives the coordinator's ratio, exactly when no
    pre-verification has completed**: each completed one is a sample more. -/
theorem tally_iff_no_preVerify (hr : c.Reach s h) :
    s.TalliesVerifications h ↔ finishedOf .preVerify h = [] := by
  have T := hr.tally
  constructor
  · intro hclaim
    have hsamples := T.samples
    rw [hclaim.samples] at hsamples
    exact List.eq_nil_of_length_eq_zero (by omega)
  · intro hnone
    obtain ⟨hsamples, hdrafted, haccepted, hcoordinator⟩ := T
    rw [hnone] at hsamples hdrafted haccepted
    refine ⟨hsamples, hdrafted, haccepted, fun a ha => ?_⟩
    obtain ⟨hverified, hkept⟩ := hcoordinator a ha
    unfold acceptRatio AHASDIntegration.acceptanceRate
    rw [hverified, hkept, hdrafted, haccepted]
    show (if checkedTokens _ + 0 > 0 then ((acceptedTokens _ + 0 : Nat) : ℚ) / _ else 0) = _
    rw [Nat.add_zero, Nat.add_zero]
    by_cases hzero : checkedTokens (finishedOf .verify h) = 0
    · rw [if_pos hzero, if_neg (by omega)]
    · rw [if_neg hzero, if_pos (by omega)]
      rfl

/-- The first round of a request, verified without a pre-verification. -/
theorem tally_iff_no_preVerify_sample : ∃ s h, preVerifiedSetup.Reach s h ∧
    s.acceptSamples = 1 ∧ s.TalliesVerifications h := by
  obtain ⟨s, h, hr, hfacts⟩ := Setup.exists_reach (c := preVerifiedSetup) (l := firstRoundCalls)
    (p := fun r => decide (r.1.acceptSamples = 1 ∧ finishedOf .preVerify r.2 = []))
    (by decide +kernel)
  obtain ⟨hone, hnone⟩ := of_decide_eq_true hfacts
  exact ⟨s, h, hr, hone, (tally_iff_no_preVerify hr).mpr hnone⟩

/-- A pre-verification that accepts its two drafts raises the reported ratio above the
    coordinator's. -/
theorem preVerify_tallied : ¬ ∀ (c : Setup) (s : SpecDecodeScheduler) (h : List Event),
    c.Reach s h → s.TalliesVerifications h := by
  intro hclaim
  obtain ⟨s, h, hr, hfacts⟩ := Setup.exists_reach (c := preVerifiedSetup)
    (l := firstRoundCalls ++ finishing [7, 8, 9, 10, 11])
    (p := fun r => r.1.ahasd.any fun a => decide (r.1.acceptRatio ≠ a.acceptanceRate))
    (by decide +kernel)
  obtain ⟨a, ha, hdiffer⟩ := (Option.any_eq_true _ _).mp hfacts
  exact of_decide_eq_true hdiffer ((hclaim preVerifiedSetup s h hr).ratio a ha)

end

/-! ## 3. The cycle tables -/

/-- A finished task with the cycles since its issue. -/
structure Completion where
  event : LangStepEvent
  cycles : Nat

namespace Completion

/-- The record of a full verification: its cycles and the length of the request after it. -/
def verifyRecord (x : Completion) : Option CycleRecord :=
  if x.event.taskType = .verify then some ⟨x.cycles, x.event.currentLength⟩ else none

/-- The record of a pre-verification: its cycles and the tokens it checked. -/
def preVerifyRecord (x : Completion) : Option CycleRecord :=
  if x.event.taskType = .preVerify then some ⟨x.cycles, max 1 x.event.draftLength⟩ else none

end Completion

namespace SpecDecodeScheduler

/-- What a call completes. -/
def completionsOf (s : SpecDecodeScheduler) (a : Act) (s' : SpecDecodeScheduler) :
    List Completion :=
  match a with
  | .finishModel modelId =>
      match s.modelMeta[modelId]? with
      | some info =>
          s'.lastFinishedEvents.map fun e => ⟨e, s.elapsedCycles info.issueCycle⟩
      | none => []
  | _ => []

/-- The scheduler as a machine that shows its completions. -/
def completionMachine : Machine SpecDecodeScheduler Act Completion where
  step := step
  obs := completionsOf

/-- **The tables are the windows of their records.** -/
structure TablesOk (c : Setup) (s : SpecDecodeScheduler) (l : List Completion) : Prop where
  nvct : ∀ t, s.control = some t →
    t.nvct = (l.filterMap Completion.verifyRecord).rtake (max 1 c.config.tvcCycleTableSize)
  pvct : ∀ t, s.control = some t →
    t.pvct = (l.filterMap Completion.preVerifyRecord).rtake (max 1 c.config.tvcCycleTableSize)

/-- A call that completes a pre-verification finds the verifications' table full of copies of the
    record it adds. -/
def PreVerifyUnseen (s : SpecDecodeScheduler) (a : Act) : Prop :=
  ∀ (modelId : Nat) (info : ModelMeta) (req : LangRequest) (t : TVC), a = .finishModel modelId →
    s.modelMeta[modelId]? = some info → info.taskType = .preVerify →
    s.activeRequests[info.requestId]? = some req → s.control = some t →
    t.nvct = List.replicate t.cycleTableSize
      ⟨s.elapsedCycles info.issueCycle, req.currentLength⟩

/-- A pre-verification leaves the verifications' table alone, a verification the
    pre-verifications'. -/
structure KeepsOther (s s' : SpecDecodeScheduler) (x : Completion) : Prop where
  nvct : x.event.taskType = .preVerify → s'.control.map TVC.nvct = s.control.map TVC.nvct
  pvct : x.event.taskType = .verify → s'.control.map TVC.pvct = s.control.map TVC.pvct

/-- The tables the completions make. -/
def recordTables (n : Nat) (l : List Completion) : Nat × List CycleRecord × List CycleRecord :=
  (n, (l.filterMap Completion.verifyRecord).rtake n, (l.filterMap Completion.preVerifyRecord).rtake n)

/-- The scheduler's tables, if it has any, are those the completions make. -/
def Recorded (c : Setup) (s : SpecDecodeScheduler) (l : List Completion) : Prop :=
  ∀ T, s.tables = some T → T = recordTables (max 1 c.config.tvcCycleTableSize) l

theorem Recorded.tablesOk {c : Setup} {s : SpecDecodeScheduler} {l : List Completion}
    (R : Recorded c s l) : TablesOk c s l := by
  have htables : ∀ t, s.control = some t →
      t.tables = recordTables (max 1 c.config.tvcCycleTableSize) l := by
    intro t ht
    refine R t.tables ?_
    unfold tables
    rw [ht]
    rfl
  exact ⟨fun t ht => congrArg (fun T => T.2.1) (htables t ht),
    fun t ht => congrArg (fun T => T.2.2) (htables t ht)⟩

theorem mem_completionsOf {s s' : SpecDecodeScheduler} {a : Act} {x : Completion}
    (hx : x ∈ completionsOf s a s') : .finished x.event ∈ machine.obs s a s' := by
  cases a with
  | finishModel modelId =>
      unfold completionsOf at hx
      dsimp only at hx
      split at hx
      · obtain ⟨e, he, rfl⟩ := List.mem_map.mp hx
        exact List.mem_map_of_mem he
      · cases hx
  | _ => cases hx

/-- Completions of no round leave no record. -/
theorem recordTables_autoreg {n : Nat} {l k : List Completion}
    (h : ∀ x ∈ k, x.event.taskType = .autoreg) : recordTables n (l ++ k) = recordTables n l := by
  have hnone : ∀ f : Completion → Option CycleRecord, (∀ x ∈ k, f x = none) →
      (l ++ k).filterMap f = l.filterMap f := by
    intro f hf
    rw [List.filterMap_append, List.filterMap_eq_nil_iff.mpr hf, List.append_nil]
  unfold recordTables
  rw [hnone, hnone]
  · intro x hx
    unfold Completion.preVerifyRecord
    rw [h x hx, if_neg (by decide)]
  · intro x hx
    unfold Completion.verifyRecord
    rw [h x hx, if_neg (by decide)]

/-- **A completed task in the tables**: a full verification is recorded where it belongs, and a
    pre-verification in both tables. -/
theorem taskTables_recordTables (s : SpecDecodeScheduler) (modelId : Nat) (req : LangRequest)
    (info : ModelMeta) {n : Nat} (hn : 1 ≤ n) (l : List Completion) :
    let x : Completion := ⟨(s.completed modelId req info).1, s.elapsedCycles info.issueCycle⟩
    s.taskTables req info (recordTables n l) =
      if info.taskType = .preVerify then
        (n, Window.push n (recordTables n l).2.1 ⟨x.cycles, req.currentLength⟩,
          (recordTables n (l ++ [x])).2.2)
      else recordTables n (l ++ [x]) := by
  obtain ⟨_, hty, _, hlength, _, _, hcurrent⟩ := s.completed_event modelId req info
  dsimp only
  generalize (s.completed modelId req info).1 = ev at hty hlength hcurrent ⊢
  unfold taskTables recordTables
  simp only [List.filterMap_append, List.filterMap_cons, List.filterMap_nil,
    Completion.verifyRecord, Completion.preVerifyRecord, hty, hlength]
  cases hkind : info.taskType with
  | verify =>
      rw [hcurrent hkind]
      simp [Window.push_rtake hn]
  | preVerify => simp [Window.push_rtake hn]
  | prompt => simp
  | draft => simp
  | autoreg => simp

end SpecDecodeScheduler

open SpecDecodeScheduler

/-- The run of a list of calls, with its completions. -/
def Setup.completionRun (c : Setup) (as : List Act) :
    Option (SpecDecodeScheduler × List Completion) :=
  c.start.bind (completionMachine.run as)

section

variable {c : Setup} {as : List Act} {s : SpecDecodeScheduler} {l : List Completion}

theorem Setup.reach_of_completionRun (h : c.completionRun as = some (s, l)) :
    ∃ e, c.Reach s e := by
  obtain ⟨s₀, hstart, hrun⟩ := Option.bind_eq_some_iff.mp h
  have hsame := machine.run_states completionMachine rfl as s₀
  rw [hrun] at hsame
  obtain ⟨⟨t, e⟩, hr, heq⟩ := Option.map_eq_some_iff.mp hsame.symm
  cases heq
  exact ⟨e, s₀, hstart, exec_of_run hr⟩

end

namespace SpecDecodeScheduler

variable {c : Setup} {s s' : SpecDecodeScheduler} {l : List Completion}

/-- The completion of a recorded model of an active request. -/
theorem step_completed {modelId : Nat} {info : ModelMeta} {req : LangRequest}
    (hs : machine.step s (.finishModel modelId) = some s') (hinfo : s.modelMeta[modelId]? = some info)
    (hact : s.activeRequests[info.requestId]? = some req) :
    s' = (s.completed modelId req info).2 ∧ completionsOf s (.finishModel modelId) s' =
      [⟨(s.completed modelId req info).1, s.elapsedCycles info.issueCycle⟩] := by
  unfold machine step finishModel at hs
  dsimp only at hs
  rw [hinfo] at hs
  dsimp only at hs
  rw [hact] at hs
  cases hs
  refine ⟨rfl, ?_⟩
  unfold completionsOf
  dsimp only
  rw [hinfo]
  rfl

theorem recordTables_nvct {n : Nat} {x : Completion} (hx : x.event.taskType ≠ .verify) :
    (recordTables n (l ++ [x])).2.1 = (recordTables n l).2.1 := by
  unfold recordTables
  rw [List.filterMap_append, List.filterMap_cons, List.filterMap_nil]
  simp [Completion.verifyRecord, hx]

theorem recordTables_pvct {n : Nat} {x : Completion} (hx : x.event.taskType ≠ .preVerify) :
    (recordTables n (l ++ [x])).2.2 = (recordTables n l).2.2 := by
  unfold recordTables
  dsimp only
  rw [List.filterMap_append (f := Completion.preVerifyRecord), List.filterMap_cons,
    List.filterMap_nil]
  simp [Completion.preVerifyRecord, hx]

theorem control_nvct (s : SpecDecodeScheduler) :
    s.control.map TVC.nvct = s.tables.map fun T => T.2.1 := by
  unfold tables
  rw [Option.map_map]
  rfl

theorem control_pvct (s : SpecDecodeScheduler) :
    s.control.map TVC.pvct = s.tables.map fun T => T.2.2 := by
  unfold tables
  rw [Option.map_map]
  rfl

/-- **A completed pre-verification leaves the tables those of the completions exactly when the
    verifications' table is full of the record it adds.** -/
theorem window_unseen {n : Nat} (hn : 1 ≤ n) (l : List Completion) {x : Completion}
    (hx : x.event.taskType = .preVerify) (r : CycleRecord) :
    Window.push n (recordTables n l).2.1 r = (recordTables n (l ++ [x])).2.1 ↔
      (recordTables n l).2.1 = List.replicate n r := by
  rw [recordTables_nvct (by rw [hx]; decide)]
  exact Window.push_eq_self hn (Window.length_rtake_le n _)

/-- The tables start empty. -/
theorem Recorded.first (hstart : c.start = some s) : Recorded c s [] := by
  have F := Setup.start_fresh hstart
  intro T hT
  unfold tables control at hT
  rw [F.ahasd] at hT
  unfold Setup.ahasd at hT
  split at hT
  · unfold AHASDIntegration.control AHASDIntegration.new at hT
    rw [Option.bind_some] at hT
    dsimp only at hT
    split at hT
    · cases hT
      simp [recordTables, TVC.tables, TVC.new, SimulationConfig.toAHASDConfig]
    · cases hT
  · cases hT

/-- Where the verifications' table hides the completed pre-verifications, the call keeps the
    tables. -/
theorem Recorded.step {e : List Event} (hr : c.Reach s e) (R : Recorded c s l) {a : Act}
    (hs : machine.step s a = some s') (hunseen : s.PreVerifyUnseen a) :
    Recorded c s' (l ++ completionsOf s a s') ∧ ∀ x ∈ completionsOf s a s', KeepsOther s s' x := by
  have hn : 1 ≤ max 1 c.config.tvcCycleTableSize := Nat.le_max_left _ _
  rcases hr.step_books hs with ⟨modelId, info, req, rfl, hinfo, hid, hact, _, _⟩ | ⟨hsame, hauto⟩
  · obtain ⟨rfl, hdone⟩ := step_completed hs hinfo (hid ▸ hact)
    obtain ⟨_, hty, _⟩ := s.completed_event modelId req info
    have htables := s.completed_tables modelId req info
    have hrecorded := fun l => s.taskTables_recordTables modelId req info hn l
    rw [hdone]
    generalize hx : (⟨(s.completed modelId req info).1, s.elapsedCycles info.issueCycle⟩ :
      Completion) = x at hrecorded
    have hxty : x.event.taskType = info.taskType := by rw [← hx]; exact hty
    have hafter : ∀ T, s.tables = some T →
        s.taskTables req info T = recordTables (max 1 c.config.tvcCycleTableSize) (l ++ [x]) := by
      intro T hT
      obtain rfl := R T hT
      refine (hrecorded l).trans ?_
      split
      · next hpre =>
          -- the table is full of the record the pre-verification adds
          obtain ⟨t, ht, heq⟩ := Option.map_eq_some_iff.mp hT
          have hfull := hunseen modelId info req t rfl hinfo hpre (hid ▸ hact) ht
          have hsize : t.cycleTableSize = max 1 c.config.tvcCycleTableSize := congrArg Prod.fst heq
          have hnvct : t.nvct = _ := congrArg (fun T => T.2.1) heq
          rw [hnvct, hsize] at hfull
          have hcycles : x.cycles = s.elapsedCycles info.issueCycle := by rw [← hx]
          rw [hcycles, (window_unseen hn l (hxty.trans hpre) _).mpr hfull]
          rfl
      · rfl
    refine ⟨fun T' hT' => ?_, fun y hy => ?_⟩
    · rw [htables] at hT'
      obtain ⟨T, hT, rfl⟩ := Option.map_eq_some_iff.mp hT'
      exact hafter T hT
    · rw [List.mem_singleton.mp hy]
      refine ⟨fun hpre => ?_, fun hverify => ?_⟩
      · rw [control_nvct, control_nvct, htables, Option.map_map]
        refine Option.map_congr fun T hT => ?_
        obtain rfl := R T hT
        show (s.taskTables req info _).2.1 = _
        rw [hafter _ hT, recordTables_nvct (by rw [hpre]; decide)]
      · rw [control_pvct, control_pvct, htables, Option.map_map]
        refine Option.map_congr fun T hT => ?_
        obtain rfl := R T hT
        show (s.taskTables req info _).2.2 = _
        rw [hafter _ hT, recordTables_pvct (by rw [hverify]; decide)]
  · have hevents : ∀ x ∈ completionsOf s a s', x.event.taskType = .autoreg := fun x hx =>
      hauto _ (mem_completionsOf hx)
    refine ⟨fun T hT => ?_, fun x hx => ⟨fun hpre => ?_, fun hverify => ?_⟩⟩
    · rw [hsame.tables] at hT
      rw [recordTables_autoreg hevents]
      exact R T hT
    · rw [hevents x hx] at hpre
      cases hpre
    · rw [hevents x hx] at hverify
      cases hverify

/-- Where it does not, the call contaminates it. -/
theorem Recorded.unseen {a : Act} (R : Recorded c s l) (hs : machine.step s a = some s')
    (hok : TablesOk c s' (l ++ completionsOf s a s')) : s.PreVerifyUnseen a := by
  have hn : 1 ≤ max 1 c.config.tvcCycleTableSize := Nat.le_max_left _ _
  intro modelId info req t ha hinfo hpre hact ht
  subst ha
  obtain ⟨rfl, hdone⟩ := step_completed hs hinfo hact
  obtain ⟨_, hty, _⟩ := s.completed_event modelId req info
  rw [hdone] at hok
  have hrecorded := s.taskTables_recordTables modelId req info hn l
  generalize hx : (⟨(s.completed modelId req info).1, s.elapsedCycles info.issueCycle⟩ :
    Completion) = x at hrecorded hok
  have hxty : x.event.taskType = .preVerify := by rw [← hx, ← hpre]; exact hty
  have hcycles : x.cycles = s.elapsedCycles info.issueCycle := by rw [← hx]
  have hbefore : s.tables = some t.tables := by
    unfold tables
    rw [ht]
    rfl
  have heq := R _ hbefore
  have hsize : t.cycleTableSize = max 1 c.config.tvcCycleTableSize := congrArg Prod.fst heq
  have hnvct : t.nvct = _ := congrArg (fun T => T.2.1) heq
  have hafter := s.completed_tables modelId req info
  rw [hbefore, heq, Option.map_some, hrecorded, if_pos hpre] at hafter
  obtain ⟨t', ht', heq'⟩ := Option.map_eq_some_iff.mp hafter
  have hnvct' : t'.nvct = _ := congrArg (fun T => T.2.1) heq'
  rw [hok.nvct t' ht'] at hnvct'
  rw [hnvct, hsize, ← hcycles]
  exact (window_unseen hn l hxty _).mp hnvct'.symm

end SpecDecodeScheduler

section

variable {c : Setup} {as : List Act}

/-- **The verifications' table is the window of the completed verifications, the pre-verifications'
    table that of the completed pre-verifications, and neither completion touches the other table,
    all along a run, if and only if every pre-verification that completes finds the verifications'
    table full of copies of the record it adds.** -/
theorem tables_iff_preVerify_unseen (hrun : (c.run as).isSome = true) :
    ((∀ bs, bs <+: as → ∀ s l, c.completionRun bs = some (s, l) → TablesOk c s l) ∧
      ∀ bs a, bs ++ [a] <+: as → ∀ s l s', c.completionRun bs = some (s, l) →
        machine.step s a = some s' → ∀ x ∈ completionsOf s a s', KeepsOther s s' x) ↔
      ∀ bs a, bs ++ [a] <+: as → ∀ s l, c.completionRun bs = some (s, l) →
        s.PreVerifyUnseen a := by
  obtain ⟨⟨t, h⟩, hrun⟩ := Option.isSome_iff_exists.mp hrun
  obtain ⟨s₀, hstart, hrun⟩ := Option.bind_eq_some_iff.mp hrun
  have hcompletions : ∀ bs, c.completionRun bs = completionMachine.run bs s₀ := by
    intro bs
    unfold Setup.completionRun
    rw [hstart]
    rfl
  have hsome : (completionMachine.run as s₀).isSome = true := by
    have hsame := machine.run_states completionMachine rfl as s₀
    rw [hrun] at hsame
    obtain ⟨r, hr, _⟩ := Option.map_eq_some_iff.mp hsame
    rw [hr]
    rfl
  have hreach : ∀ {bs s l}, completionMachine.run bs s₀ = some (s, l) → ∃ e, c.Reach s e :=
    fun {bs} _ _ hs => Setup.reach_of_completionRun ((hcompletions bs).trans hs)
  have hfirst := Recorded.first hstart
  simp only [hcompletions]
  have hiff := completionMachine.run_iff (C := fun s a => s.PreVerifyUnseen a)
    (I := fun _ s l => Recorded c s l) (Q := fun _ s l => TablesOk c s l) hsome hfirst
    (fun _ _ _ R => R.tablesOk) ?_
  · refine ⟨fun hall => hiff.mp hall.1, fun hunseen => ⟨hiff.mpr hunseen, ?_⟩⟩
    intro bs a hb s l s' hs hstep x hx
    have R : Recorded c s l := by
      refine (completionMachine.run_along (C := fun s a => s.PreVerifyUnseen a)
        (P := fun s l => (∃ e, c.Reach s e) ∧ Recorded c s l) ⟨⟨[], s₀, hstart, .start⟩, hfirst⟩ ?_
        hs fun bs' b hb' => hunseen bs' b (hb'.trans ((List.prefix_append bs [a]).trans hb))).2
      rintro s l a s' ⟨⟨e, hr⟩, R⟩ hunseen hstep
      exact ⟨⟨_, hr.exec (.one hstep)⟩, (R.step hr hstep hunseen).1⟩
    obtain ⟨e, hr⟩ := hreach hs
    exact (R.step hr hstep (hunseen bs a hb s l hs)).2 x hx
  · intro bs a s l s' _ hs R hstep
    obtain ⟨e, hr⟩ := hreach hs
    exact ⟨fun hunseen => (R.step hr hstep hunseen).1, R.unseen hstep⟩

/-- The first round of a request: no pre-verification, and the tables are those of the
    completions. -/
theorem tables_iff_preVerify_unseen_sample :
    (preVerifiedSetup.run (finishing [2, 3, 4, 5, 6])).isSome = true ∧
      ∀ bs, bs <+: finishing [2, 3, 4, 5, 6] → ∀ s l,
        preVerifiedSetup.completionRun bs = some (s, l) → TablesOk preVerifiedSetup s l := by
  have hrun : (preVerifiedSetup.run (finishing [2, 3, 4, 5, 6])).isSome = true := by decide +kernel
  have hfacts : ∀ bs ∈ (finishing [2, 3, 4, 5, 6]).inits, (preVerifiedSetup.completionRun bs).all
      (fun r => r.1.modelMeta.toList.all fun p => decide (p.2.taskType ≠ .preVerify)) = true := by
    decide +kernel
  refine ⟨hrun, ((tables_iff_preVerify_unseen hrun).mpr ?_).1⟩
  intro bs a hb s l hs modelId info req t _ hinfo hpre _ _
  have hnone := hfacts bs ((List.mem_inits _ _).mpr ((List.prefix_append bs [a]).trans hb))
  rw [hs, Option.all_some] at hnone
  have hne := List.all_eq_true.mp hnone _ (TreeMap.mem_toList_iff_getElem?_eq_some.mpr hinfo)
  exact absurd hpre (of_decide_eq_true hne)

/-- The pre-verification of the second round is recorded as a verification. -/
theorem preVerify_contaminates : ¬ ∀ (c : Setup) (as : List Act) (s : SpecDecodeScheduler)
    (l : List Completion), c.completionRun as = some (s, l) → TablesOk c s l := by
  intro hclaim
  have hfacts : ((preVerifiedSetup.completionRun
      (firstRoundCalls ++ finishing [7, 8, 9, 10])).any fun r => r.1.control.any fun t =>
        decide (t.nvct ≠ (r.2.filterMap Completion.verifyRecord).rtake
          (max 1 preVerifiedSetup.config.tvcCycleTableSize))) = true := by decide +kernel
  obtain ⟨⟨s, l⟩, hrun, hcontrol⟩ := (Option.any_eq_true _ _).mp hfacts
  obtain ⟨t, ht, hdiffer⟩ := (Option.any_eq_true _ _).mp hcontrol
  exact of_decide_eq_true hdiffer ((hclaim _ _ s l hrun).nvct t ht)

end

end Ahasd
