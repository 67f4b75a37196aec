/-
  File:      Ahasd/Scheduler/PreVerifications.lean
  Subject:   EVERY PRE-VERIFICATION ASKED FOR IS ISSUED: TVC's decisions against the issued tasks.

  The coordinator counts a pre-verification when it decides on one; the scheduler issues it when the
  decided length passes a test of its own. The clamps of the decision imply the test, so the two
  never part.

  * `boundPreVerify_bounds`, `decidePreVerify_bounds`: the length of a decision;
  * `preVerifyBooks`: what the coordinator counts; `Rule.preVerifyBooks`: what each rule does to it;
  * `preVerifiesOf`, `OnceARound`: the pre-verifications of a round, at most one;
  * **`decisions_become_tasks`**: decisions, tasks and counters agree in every run.
-/
import Ahasd.PreVerifyDecision
import Ahasd.Scheduler.Progress

namespace Ahasd

open Std Transition OrderedMap

/-! ## 1. The length of a decision -/

namespace AHASDIntegration

/-- The clamps leave a strict prefix of the pending drafts, within the maximum. -/
theorem boundPreVerify_bounds {length preVerifyMax pendingDraftCount : Nat}
    (hpending : 2 ≤ pendingDraftCount) :
    boundPreVerify length preVerifyMax pendingDraftCount ≤ preVerifyMax ∧
      boundPreVerify length preVerifyMax pendingDraftCount < pendingDraftCount := by
  unfold boundPreVerify
  dsimp only
  split <;> omega

/-- **The length of a decision**, with the least length the simulator configures: 0, or a strict
    prefix of the pending drafts within the maximum. -/
theorem decidePreVerify_bounds {a : AHASDIntegration} (hmin : a.config.minPreverifyLength = 2)
    (kvLength pendingDraftCount : Nat) :
    (a.decidePreVerify kvLength pendingDraftCount).1 = 0 ∨
      1 ≤ (a.decidePreVerify kvLength pendingDraftCount).1 ∧
        (a.decidePreVerify kvLength pendingDraftCount).1 ≤ a.config.preVerifyMax ∧
        (a.decidePreVerify kvLength pendingDraftCount).1 < pendingDraftCount := by
  unfold decidePreVerify
  split
  · next t hon htvc =>
      split
      · exact .inl rfl
      · next hpending =>
          rw [hmin] at hpending
          generalize t.shouldInsertPreverification kvLength pendingDraftCount = r
          obtain ⟨decision, t'⟩ := r
          dsimp only
          split
          · exact .inl rfl
          · split
            · exact .inl rfl
            · next hpos =>
                exact .inr ⟨Nat.pos_of_ne_zero hpos, boundPreVerify_bounds (by omega)⟩
  · exact .inl rfl

/-! ## 2. What the coordinator counts -/

/-- The pre-verifications the coordinator counts: those decided on, those TVC counts as prevented
    idles, and the tokens of the completed ones. -/
structure PreVerifyBooks where
  decided : Nat
  prevented : Option Nat
  tokens : Nat
  deriving DecidableEq, Repr

def preVerifyBooks (a : AHASDIntegration) : PreVerifyBooks :=
  ⟨a.totalPreVerifies, a.control.map TVC.preventedNpuIdles, a.totalPreverifyTokens⟩

/-- One pre-verification more. -/
def PreVerifyBooks.inserted (b : PreVerifyBooks) : PreVerifyBooks :=
  { b with decided := b.decided + 1, prevented := b.prevented.map (· + 1) }

/-- After a decision, which is for a pre-verification unless its length is 0. -/
def PreVerifyBooks.after (b : PreVerifyBooks) (length : Nat) : PreVerifyBooks :=
  if length = 0 then b else b.inserted

section Books

variable (a : AHASDIntegration)

/-- A call into TVC that prevents no idle. -/
theorem updateTvc_preVerifyBooks {f : TVC → TVC}
    (hf : ∀ t, (f t).preventedNpuIdles = t.preventedNpuIdles) :
    (a.updateTvc f).preVerifyBooks = a.preVerifyBooks := by
  have hcounters : (a.updateTvc f).totalPreVerifies = a.totalPreVerifies ∧
      (a.updateTvc f).totalPreverifyTokens = a.totalPreverifyTokens := by
    unfold updateTvc
    split <;> exact ⟨rfl, rfl⟩
  unfold preVerifyBooks
  rw [updateTvc_keeps a hf, hcounters.1, hcounters.2]

/-- Registers of TVC that count nothing. -/
theorem preventedNpuIdles_ncr (t : TVC) (ncr : Nat) :
    ({ t with ncr := ncr } : TVC).preventedNpuIdles = t.preventedNpuIdles := rfl

theorem updateEdc_preVerifyBooks (full : Bool) (accepted : Nat) :
    (a.updateEdc full accepted).preVerifyBooks = a.preVerifyBooks := by
  unfold preVerifyBooks
  rw [updateEdc_control]
  unfold updateEdc
  split <;> rfl

theorem decideDraftLength_preVerifyBooks (maxK : Nat) (hint : ℚ) :
    (a.decideDraftLength maxK hint).2.preVerifyBooks = a.preVerifyBooks := by
  unfold preVerifyBooks
  rw [decideDraftLength_control]
  unfold decideDraftLength
  dsimp only
  split <;> rfl

theorem recordVerifyResult_preVerifyBooks (full : Bool) (k accepted cycles kvLength : Nat)
    (final : Bool) : (a.recordVerifyResult full k accepted cycles kvLength final).preVerifyBooks =
      a.preVerifyBooks := by
  unfold recordVerifyResult
  dsimp only
  rw [updateTvc_preVerifyBooks _ (f := (·.recordNpuVerification cycles kvLength)) fun _ => rfl,
    updateEdc_preVerifyBooks]
  cases final <;> rfl

/-- A completed pre-verification adds its tokens. -/
theorem recordPreVerify_preVerifyBooks (cycles length : Nat) :
    (a.recordPreVerify cycles length).preVerifyBooks =
      { a.preVerifyBooks with tokens := a.preVerifyBooks.tokens + length } := by
  unfold recordPreVerify
  exact updateTvc_preVerifyBooks _ fun _ => rfl

theorem startNpuTask_preVerifyBooks (npuCycle : Nat) :
    (a.startNpuTask npuCycle).preVerifyBooks = a.preVerifyBooks :=
  a.updateTvc_preVerifyBooks fun _ => rfl

theorem cycleNpuWithProgress_preVerifyBooks (npuCycle : Nat) :
    (a.cycleNpuWithProgress npuCycle).preVerifyBooks = a.preVerifyBooks :=
  a.updateTvc_preVerifyBooks fun t => preventedNpuIdles_ncr t _

/-- **A decision counts itself**, for the coordinator and for TVC. -/
theorem decidePreVerify_preVerifyBooks (kvLength pendingDraftCount : Nat) :
    (a.decidePreVerify kvLength pendingDraftCount).2.preVerifyBooks =
      a.preVerifyBooks.after (a.decidePreVerify kvLength pendingDraftCount).1 := by
  unfold decidePreVerify
  split
  · next t hon htvc =>
      have hidles := t.shouldInsertPreverification_preventedNpuIdles kvLength pendingDraftCount
      generalize t.shouldInsertPreverification kvLength pendingDraftCount = r at hidles
      obtain ⟨decision, t'⟩ := r
      dsimp only at hidles ⊢
      have hbooks : ({ a with tvc := some t' } : AHASDIntegration).preVerifyBooks =
          a.preVerifyBooks := by
        unfold preVerifyBooks
        rw [control_of (a := { a with tvc := some t' }) hon rfl, control_of hon htvc, Option.map_some,
          Option.map_some, hidles]
      split
      · rfl
      · split
        · exact hbooks
        · split
          · exact hbooks
          · next hpos =>
              unfold PreVerifyBooks.after
              rw [if_neg hpos, ← hbooks]
              unfold PreVerifyBooks.inserted preVerifyBooks
              rw [control_of (a := { a with tvc := some t' }) hon rfl,
                control_of (a := { a with
                  totalPreVerifies := a.totalPreVerifies + 1
                  tvc := some t'.recordPreventedIdle }) hon rfl]
              rfl
  · rfl

end Books

end AHASDIntegration

/-! ## 3. The history -/

/-- The record of an issued model, if its task is of the kind. -/
def Event.issuedTask (ty : LangTaskType) : Event → Option ModelMeta
  | .issued _ info => if info.taskType = ty then some info else none
  | _ => none

/-- The tasks of a kind a history issued, in order. -/
def issuedOf (ty : LangTaskType) (h : List Event) : List ModelMeta :=
  h.filterMap (Event.issuedTask ty)

/-- The pre-verifications issued for a round of a request. -/
def preVerifiesOf (id n : Nat) (h : List Event) : List ModelMeta :=
  (issuedOf .preVerify h).filter fun info => info.requestId = id ∧ info.verifyRound = n

/-- The tokens of the tasks. -/
def draftLengths (l : List LangStepEvent) : Nat :=
  (l.map LangStepEvent.draftLength).sum

section History

variable (ty : LangTaskType) (h h' : List Event)

theorem issuedOf_append : issuedOf ty (h ++ h') = issuedOf ty h ++ issuedOf ty h' :=
  List.filterMap_append

theorem issuedOf_issued (built : Model) (info : ModelMeta) :
    issuedOf ty [.issued built info] = if info.taskType = ty then [info] else [] := by
  unfold issuedOf
  by_cases hty : info.taskType = ty <;> simp [Event.issuedTask, hty]

theorem preVerifiesOf_append (id n : Nat) :
    preVerifiesOf id n (h ++ h') = preVerifiesOf id n h ++ preVerifiesOf id n h' := by
  unfold preVerifiesOf
  rw [issuedOf_append, List.filter_append]

end History

namespace SpecDecodeScheduler

/-! ## 4. What the rules do to the books -/

/-- The books of the scheduler's coordinator. -/
def preVerifyBooks (s : SpecDecodeScheduler) : Option AHASDIntegration.PreVerifyBooks :=
  s.ahasd.map AHASDIntegration.preVerifyBooks

/-- What a call into the coordinator does to the books, it does to the scheduler's. -/
theorem preVerifyBooks_map {s s' : SpecDecodeScheduler} {f : AHASDIntegration → AHASDIntegration}
    {g : AHASDIntegration.PreVerifyBooks → AHASDIntegration.PreVerifyBooks}
    (h : s'.ahasd = s.ahasd.map f) (hf : ∀ a, (f a).preVerifyBooks = g a.preVerifyBooks) :
    s'.preVerifyBooks = s.preVerifyBooks.map g := by
  unfold preVerifyBooks
  rw [h, Option.map_map, Option.map_map]
  exact Option.map_congr fun a _ => hf a

theorem preVerifyBooks_same {s s' : SpecDecodeScheduler} {f : AHASDIntegration → AHASDIntegration}
    (h : s'.ahasd = s.ahasd.map f) (hf : ∀ a, (f a).preVerifyBooks = a.preVerifyBooks) :
    s'.preVerifyBooks = s.preVerifyBooks :=
  (preVerifyBooks_map (g := id) h hf).trans (congrFun Option.map_id _)

theorem preVerifyBooks_congr {s s' : SpecDecodeScheduler} (h : s'.ahasd = s.ahasd) :
    s'.preVerifyBooks = s.preVerifyBooks := by
  unfold preVerifyBooks
  rw [h]

/-- The coordinator, when there is one, has the configuration the simulator built. -/
def BuiltBy (c : Setup) (s : SpecDecodeScheduler) : Prop :=
  s.ahasd.map AHASDIntegration.config = c.ahasd.map AHASDIntegration.config

/-- **The simulator leaves the least and the greatest length at their defaults.** -/
theorem BuiltBy.lengths {c : Setup} {s : SpecDecodeScheduler} (hbuilt : BuiltBy c s)
    {a : AHASDIntegration} (ha : s.ahasd = some a) :
    a.config.minPreverifyLength = 2 ∧ a.config.preVerifyMax = 8 := by
  unfold BuiltBy at hbuilt
  rw [ha] at hbuilt
  unfold Setup.ahasd at hbuilt
  split at hbuilt
  · have heq : a.config = c.config.toAHASDConfig := Option.some.inj hbuilt
    rw [heq]
    exact ⟨rfl, rfl⟩
  · cases hbuilt

/-- **A decision for a pre-verification passes the scheduler's test.** -/
theorem insertsPreVerify_of_decided {s : SpecDecodeScheduler}
    (hmin : ∀ a, s.ahasd = some a → a.config.minPreverifyLength = 2) {req : LangRequest}
    (h : (s.decidePreVerify req).1 ≠ 0) : s.InsertsPreVerify req := by
  refine ⟨Nat.pos_of_ne_zero h, ?_⟩
  unfold decidePreVerify at h ⊢
  cases ha : s.ahasd with
  | none =>
      rw [ha] at h
      exact absurd rfl h
  | some a =>
      rw [ha] at h
      dsimp only at h ⊢
      split at h
      · next hconsult =>
          rw [if_pos hconsult]
          have hmin' : (a.startNpuTask s.cycleCount).config.minPreverifyLength = 2 := by
            rw [AHASDIntegration.startNpuTask_config]
            exact hmin a ha
          rcases AHASDIntegration.decidePreVerify_bounds hmin' req.currentLength
            req.plannedDraftLength with hzero | ⟨_, _, hlt⟩
          · exact absurd hzero h
          · exact hlt.trans_le (Nat.le_max_right _ _)
      · exact absurd rfl h

/-- TVC's consultation counts its decision. -/
theorem decidePreVerify_preVerifyBooks (s : SpecDecodeScheduler) (req : LangRequest) :
    (s.decidePreVerify req).2.preVerifyBooks =
      s.preVerifyBooks.map fun b => b.after (s.decidePreVerify req).1 := by
  have hstays : ∀ b : AHASDIntegration.PreVerifyBooks, b.after 0 = b := fun _ => rfl
  unfold decidePreVerify
  cases ha : s.ahasd with
  | none =>
      unfold preVerifyBooks
      rw [ha]
      rfl
  | some a =>
      dsimp only
      split
      · unfold preVerifyBooks
        rw [ha]
        refine congrArg some ?_
        rw [AHASDIntegration.decidePreVerify_preVerifyBooks,
          AHASDIntegration.startNpuTask_preVerifyBooks]
      · simp only [hstays, Option.map_id']

/-- **Preparing a task counts a pre-verification exactly when it is one.** -/
theorem Prepared.preVerifyBooks {c : Setup} {s s₁ : SpecDecodeScheduler} (C : Configured c s)
    {req req' : LangRequest} {model : LanguageModel} {seqLength : Nat} {info : ModelMeta}
    (h : Prepared s req s₁ req' model seqLength info) :
    s₁.preVerifyBooks = if info.taskType = .preVerify then
      s.preVerifyBooks.map AHASDIntegration.PreVerifyBooks.inserted else s.preVerifyBooks := by
  cases h with
  | prompt h =>
      rw [if_neg (by simp)]
      exact preVerifyBooks_congr (by simp)
  | draft h =>
      rw [if_neg (by simp)]
      exact preVerifyBooks_congr (by simp)
  | verify h hpv =>
      have hzero : (s.decidePreVerify req).1 = 0 :=
        Classical.byContradiction fun hne => hpv (insertsPreVerify_of_decided
          (fun a ha => (BuiltBy.lengths C.ahasd ha).1) hne)
      rw [if_neg (by simp), preVerifyBooks_congr (s := (s.decidePreVerify req).2) (by simp),
        s.decidePreVerify_preVerifyBooks req, hzero]
      exact congrFun Option.map_id _
  | preVerify h hpv =>
      rw [if_pos rfl, preVerifyBooks_congr (s := (s.decidePreVerify req).2) (by simp),
        s.decidePreVerify_preVerifyBooks req]
      refine Option.map_congr fun b _ => ?_
      exact if_neg (Nat.pos_iff_ne_zero.mp hpv.1)

/-- What a finished task does to the books. -/
def taskBooks (info : ModelMeta) (b : AHASDIntegration.PreVerifyBooks) :
    AHASDIntegration.PreVerifyBooks :=
  if info.taskType = .preVerify then
    { b with tokens := b.tokens + max 1 info.draftLengthAtIssue }
  else b

theorem taskAhasd_preVerifyBooks (s : SpecDecodeScheduler) (req : LangRequest) (info : ModelMeta)
    (a : AHASDIntegration) :
    (s.taskAhasd req info a).preVerifyBooks = taskBooks info a.preVerifyBooks := by
  unfold taskAhasd taskBooks
  dsimp only
  cases info.taskType with
  | prompt => exact (if_neg (by simp)).symm
  | autoreg => exact (if_neg (by simp)).symm
  | draft =>
      refine Eq.trans ?_ (if_neg (by simp)).symm
      dsimp only
      split
      · exact AHASDIntegration.updateTvc_preVerifyBooks _
          (f := (·.recordPimDrafting (s.elapsedCycles info.issueCycle) 1)) fun _ => rfl
      · rfl
  | verify =>
      refine Eq.trans ?_ (if_neg (by simp)).symm
      exact a.recordVerifyResult_preVerifyBooks _ _ _ _ _ _
  | preVerify =>
      refine Eq.trans ?_ (if_pos rfl).symm
      dsimp only
      rw [AHASDIntegration.recordVerifyResult_preVerifyBooks,
        AHASDIntegration.recordPreVerify_preVerifyBooks]

/-- **The coordinator's counts are those of the history.** -/
structure PreVerifiesCounted (s : SpecDecodeScheduler) (h : List Event) : Prop where
  decided : ∀ b, s.preVerifyBooks = some b → b.decided = (issuedOf .preVerify h).length
  prevented : ∀ b n, s.preVerifyBooks = some b → b.prevented = some n →
    n = (issuedOf .preVerify h).length
  tokens : ∀ b, s.preVerifyBooks = some b → b.tokens = draftLengths (finishedOf .preVerify h)

/-- A rule that leaves the books alone, and neither issues nor finishes a pre-verification. -/
theorem PreVerifiesCounted.same {s s' : SpecDecodeScheduler} {h e : List Event}
    (P : PreVerifiesCounted s h) (hbooks : s'.preVerifyBooks = s.preVerifyBooks)
    (hissued : issuedOf .preVerify e = []) (hfinished : finishedOf .preVerify e = []) :
    PreVerifiesCounted s' (h ++ e) := by
  refine ⟨?_, ?_, ?_⟩
  · rw [hbooks, issuedOf_append, hissued, List.append_nil]
    exact P.decided
  · rw [hbooks, issuedOf_append, hissued, List.append_nil]
    exact P.prevented
  · rw [hbooks, finishedOf_append, hfinished, List.append_nil]
    exact P.tokens

/-- One pre-verification issued. -/
theorem PreVerifiesCounted.inserted {s s' : SpecDecodeScheduler} {h : List Event}
    (P : PreVerifiesCounted s h) {built : Model} {info : ModelMeta} (hty : info.taskType = .preVerify)
    (hbooks : s'.preVerifyBooks =
      s.preVerifyBooks.map AHASDIntegration.PreVerifyBooks.inserted) :
    PreVerifiesCounted s' (h ++ [.issued built info]) := by
  have hlength : (issuedOf .preVerify (h ++ [.issued built info])).length =
      (issuedOf .preVerify h).length + 1 := by
    rw [issuedOf_append, issuedOf_issued, if_pos hty, List.length_append]
    rfl
  have hfinished : finishedOf .preVerify (h ++ [.issued built info]) = finishedOf .preVerify h := by
    rw [finishedOf_append]
    exact List.append_nil _
  refine ⟨?_, ?_, ?_⟩
  · intro b' hb'
    rw [hbooks] at hb'
    obtain ⟨b, hb, rfl⟩ := Option.map_eq_some_iff.mp hb'
    rw [hlength, ← P.decided b hb]
    rfl
  · intro b' n hb' hn
    rw [hbooks] at hb'
    obtain ⟨b, hb, rfl⟩ := Option.map_eq_some_iff.mp hb'
    obtain ⟨m, hm, rfl⟩ := Option.map_eq_some_iff.mp hn
    rw [hlength, ← P.prevented b m hb hm]
  · intro b' hb'
    rw [hbooks] at hb'
    obtain ⟨b, hb, rfl⟩ := Option.map_eq_some_iff.mp hb'
    rw [hfinished]
    exact P.tokens b hb

/-- A completed task. -/
theorem PreVerifiesCounted.finish {s : SpecDecodeScheduler} {h : List Event} (I : ProtocolOk s)
    (P : PreVerifiesCounted s h) {modelId : Nat} {info : ModelMeta} {req : LangRequest}
    (hinfo : s.modelMeta[modelId]? = some info) :
    PreVerifiesCounted (s.completed modelId req info).2
      (h ++ [.finished (s.completed modelId req info).1]) := by
  have hbooks := preVerifyBooks_map (s.completed_ahasd modelId req info)
    (s.taskAhasd_preVerifyBooks req info)
  obtain ⟨_, hety, _, helength, _⟩ := s.completed_event modelId req info
  by_cases hty : info.taskType = .preVerify
  · -- its length is at least 1, so it is the length counted
    have hlength : max 1 info.draftLengthAtIssue = info.draftLengthAtIssue := by
      obtain ⟨_, r, _, _, htask⟩ := I.tasks _ _ hinfo
      unfold TaskOk at htask
      rw [hty] at htask
      exact Nat.max_eq_right htask.2.1.1
    unfold taskBooks at hbooks
    simp only [hty, if_true, hlength] at hbooks
    have hissued : issuedOf .preVerify (h ++ [.finished (s.completed modelId req info).1]) =
        issuedOf .preVerify h := by
      rw [issuedOf_append]
      exact List.append_nil _
    have htokens : draftLengths (finishedOf .preVerify
        (h ++ [.finished (s.completed modelId req info).1])) =
          draftLengths (finishedOf .preVerify h) + info.draftLengthAtIssue := by
      rw [finishedOf_append, finishedOf_finished, if_pos (hety.trans hty), ← helength]
      simp [draftLengths]
    refine ⟨?_, ?_, ?_⟩
    · intro b' hb'
      rw [hbooks] at hb'
      obtain ⟨b, hb, rfl⟩ := Option.map_eq_some_iff.mp hb'
      rw [hissued]
      exact P.decided b hb
    · intro b' n hb' hn
      rw [hbooks] at hb'
      obtain ⟨b, hb, rfl⟩ := Option.map_eq_some_iff.mp hb'
      rw [hissued]
      exact P.prevented b n hb hn
    · intro b' hb'
      rw [hbooks] at hb'
      obtain ⟨b, hb, rfl⟩ := Option.map_eq_some_iff.mp hb'
      rw [htokens, ← P.tokens b hb]
  · refine P.same ?_ rfl ?_
    · unfold taskBooks at hbooks
      simp only [hty, if_false] at hbooks
      exact hbooks.trans (congrFun Option.map_id _)
    · rw [finishedOf_finished, if_neg]
      rw [hety]
      exact hty

/-- **Every rule keeps the counts.** -/
theorem PreVerifiesCounted.rule {c : Setup} {s s' : SpecDecodeScheduler} {h e : List Event}
    (I : ProtocolOk s) (C : Configured c s) (P : PreVerifiesCounted s h) (hr : Rule s s' e) :
    PreVerifiesCounted s' (h ++ e) := by
  cases hr with
  | tick => exact P.same rfl rfl rfl
  | admitOne r rest hq ht => exact P.same rfl rfl rfl
  | unstall id => exact P.same rfl rfl rfl
  | pop model rest hq => exact P.same rfl rfl rfl
  | memory f g hf hg => exact P.same rfl rfl rfl
  | draw g hg => exact P.same rfl rfl rfl
  | orphan modelId info hinfo hact => exact P.same rfl rfl rfl
  | stray modelId base hinfo hbase =>
      obtain rfl := I.stray_eq hinfo hbase
      exact P.same rfl rfl rfl
  | beacon npuCycle =>
      exact P.same (preVerifyBooks_same rfl fun a => a.cycleNpuWithProgress_preVerifyBooks npuCycle)
        rfl rfl
  | plan req hact hrun hphase =>
      obtain ⟨ssrc, deferred, heq⟩ := s.planRound_eq req
      refine P.same ?_ rfl rfl
      rw [heq]
      refine preVerifyBooks_same rfl fun a => ?_
      unfold planAhasd
      split
      · exact a.decideDraftLength_preVerifyBooks _ _
      · rfl
  | issue s₁ req req' model seqLength info built g hact hrun hprep hgen =>
      have hbooks := hprep.preVerifyBooks C
      split at hbooks
      · next hty => exact P.inserted hty hbooks
      · next hty =>
          refine P.same hbooks ?_ rfl
          rw [issuedOf_issued, if_neg hty]
  | finish modelId info req hinfo hact => exact P.finish I hinfo

/-! ## 5. At most one in a round -/

/-- **A round has at most one pre-verification**; one that has it was planned, and the scheduler
    remembers it as long as the request is in the round. -/
structure OnceARound (s : SpecDecodeScheduler) (h : List Event) : Prop where
  once : ∀ id n, (preVerifiesOf id n h).length ≤ 1
  planned : ∀ id n, preVerifiesOf id n h ≠ [] → (s.planOf id n).isSome = true
  remembered : ∀ (id n : Nat) (r : LangRequest), preVerifiesOf id n h ≠ [] →
    s.activeRequests[id]? = some r → r.specRound = n → s.preVerifiedInRound[id]? = some n

/-- A move that issues no pre-verification. -/
theorem OnceARound.same {s s' : SpecDecodeScheduler} {h e : List Event} (O : OnceARound s h)
    (hissued : issuedOf .preVerify e = [])
    (hplans : ∀ id n, (s.planOf id n).isSome = true → (s'.planOf id n).isSome = true)
    (hremembered : ∀ (id n : Nat) (r : LangRequest), (s.planOf id n).isSome = true →
      s'.activeRequests[id]? = some r → r.specRound = n →
      (∀ r₀ : LangRequest, s.activeRequests[id]? = some r₀ → r₀.specRound = n →
        s.preVerifiedInRound[id]? = some n) → s'.preVerifiedInRound[id]? = some n) :
    OnceARound s' (h ++ e) := by
  have hlist : ∀ id n, preVerifiesOf id n (h ++ e) = preVerifiesOf id n h := by
    intro id n
    rw [preVerifiesOf_append]
    unfold preVerifiesOf
    rw [hissued, List.filter_nil, List.append_nil]
  refine ⟨fun id n => ?_, fun id n hne => ?_, fun id n r hne hact hround => ?_⟩
  · rw [hlist]
    exact O.once id n
  · rw [hlist] at hne
    exact hplans id n (O.planned id n hne)
  · rw [hlist] at hne
    exact hremembered id n r (O.planned id n hne) hact hround fun r₀ hact₀ hround₀ =>
      O.remembered id n r₀ hne hact₀ hround₀

/-- The issue of a model. -/
theorem OnceARound.issue {s s₁ : SpecDecodeScheduler} {h : List Event} (I : ProtocolOk s)
    (O : OnceARound s h) {req req' : LangRequest} {model : LanguageModel} {seqLength : Nat}
    {info : ModelMeta} {built : Model} {g : Globals}
    (hact : s.activeRequests[req.requestId]? = some req)
    (hprep : Prepared s req s₁ req' model seqLength info)
    (hgen : model.generateModel [modelInput req' info.taskType seqLength] s.globals =
      some (built, g)) :
    OnceARound (s₁.launched req' info built g) (h ++ [.issued built info]) := by
  have L := hprep.launched hgen
  obtain ⟨v, hactive⟩ := L.active
  have hplans : ∀ id n, (s₁.launched req' info built g).planOf id n = s.planOf id n := by
    intro id n
    have hplan : s₁.planOf id n = s.planOf id n := I.prepared_planOf hact hprep id n
    exact hplan
  -- the issued request is in the round it was in
  have hround : ∀ (id n : Nat) (r : LangRequest),
      (s₁.launched req' info built g).activeRequests[id]? = some r → r.specRound = n →
      ∃ r₀ : LangRequest, s.activeRequests[id]? = some r₀ ∧ r₀.specRound = n := by
    intro id n r hr hn
    rw [hactive] at hr
    split at hr
    · next heq =>
        cases hr
        exact ⟨req, heq ▸ hact, hn⟩
    · exact ⟨r, hr, hn⟩
  by_cases hty : info.taskType = .preVerify
  · have hpre := L.preVerified
    rw [if_pos hty] at hpre
    cases hprep with
    | prompt h => cases hty
    | draft h => cases hty
    | verify h hpv => cases hty
    | preVerify h hpv =>
        -- the round had none before: the decision is not taken twice
        have hnone : preVerifiesOf req.requestId req.specRound _ = [] :=
          Classical.byContradiction fun hne =>
            hpv.notYet (O.remembered _ _ req hne hact rfl)
        have hphase := (I.requests _ _ hact).phase
        unfold LangRequest.PhaseFacts at hphase
        rw [h] at hphase
        obtain ⟨hint, hplanned⟩ := (I.requests _ _ hact).planned hphase.1
        refine ⟨fun id n => ?_, fun id n hne => ?_, fun id n r hne hr hn => ?_⟩
        · rw [preVerifiesOf_append]
          by_cases hsame : req.requestId = id ∧ req.specRound = n
          · obtain ⟨rfl, rfl⟩ := hsame
            rw [hnone]
            exact List.length_filter_le _ _
          · rw [List.length_append, show preVerifiesOf id n [_] = [] by
              simp [preVerifiesOf, issuedOf_issued, hsame]]
            exact O.once id n
        · rw [hplans]
          by_cases hsame : req.requestId = id ∧ req.specRound = n
          · obtain ⟨rfl, rfl⟩ := hsame
            rw [hplanned]
            rfl
          · rw [preVerifiesOf_append, show preVerifiesOf id n [_] = [] by
              simp [preVerifiesOf, issuedOf_issued, hsame], List.append_nil] at hne
            exact O.planned id n hne
        · obtain ⟨r₀, hact₀, hn₀⟩ := hround id n r hr hn
          rw [hpre, lookup_insert]
          by_cases hid : id = req.requestId
          · subst hid
            rw [hact, Option.some.injEq] at hact₀
            rw [if_pos rfl, hact₀, hn₀]
          · rw [if_neg hid]
            rw [preVerifiesOf_append, show preVerifiesOf id n [_] = [] by
              simp [preVerifiesOf, issuedOf_issued, Ne.symm hid], List.append_nil] at hne
            exact O.remembered id n r₀ hne hact₀ hn₀
  · have hpre := L.preVerified
    rw [if_neg hty] at hpre
    refine O.same ?_ (fun id n hp => (hplans id n).symm ▸ hp) ?_
    · rw [issuedOf_issued, if_neg hty]
    · intro id n r _ hr hn hkept
      obtain ⟨r₀, hact₀, hn₀⟩ := hround id n r hr hn
      rw [hpre]
      exact hkept r₀ hact₀ hn₀

/-- A completed task. -/
theorem OnceARound.finish {s : SpecDecodeScheduler} {h : List Event} (I : ProtocolOk s)
    (O : OnceARound s h) {modelId : Nat} {info : ModelMeta} {req : LangRequest}
    (hinfo : s.modelMeta[modelId]? = some info) (hid : info.requestId = req.requestId)
    (hact : s.activeRequests[req.requestId]? = some req)
    (htask : TaskDone s req info (s.afterTask req info)) :
    OnceARound (s.completed modelId req info).2
      (h ++ [.finished (s.completed modelId req info).1]) := by
  have hactive := s.completed_activeRequests modelId req info hid hact
  have hpre := s.completed_preVerifiedInRound modelId req info
  have hplans := I.completed_plans hinfo hid hact
  refine O.same rfl (fun id n hp => (hplans id n).symm ▸ hp) fun id n r _ hr hn hkept => ?_
  rw [hactive] at hr
  rw [hpre]
  by_cases heq : id = req.requestId
  · rw [if_pos heq] at hr
    subst heq
    obtain ⟨r', hafter, rfl⟩ := Option.map_eq_some_iff.mp hr
    have hround : r'.specRound = req.specRound := by
      rw [hafter] at htask
      cases htask with
      | prompt => rfl
      | draft => rfl
      | verify => exact (applyVerifyResult_round s req _).1
      | preVerify => rfl
    rw [if_neg (by rw [hafter]; simp)]
    exact hkept req hact (hround.symm.trans hn)
  · rw [if_neg heq] at hr
    have hstays := hkept r hr hn
    split
    · rw [lookup_erase, if_neg heq]
      exact hstays
    · exact hstays

/-- **Every move keeps it.** -/
theorem OnceARound.move {s s' : SpecDecodeScheduler} {h e : List Event} (I : ProtocolOk s)
    (O : OnceARound s h) (hm : Move s s' e) : OnceARound s' (h ++ e) := by
  cases hm with
  | minor s' hm =>
      refine O.same rfl (fun id n hp => ?_) fun id n r _ hr hn hkept => ?_
      · unfold planOf at hp ⊢
        rw [hm.traces]
        exact hp
      · rw [hm.active] at hr
        rw [hm.preVerified]
        exact hkept r hr hn
  | admitOne r rest hq =>
      refine O.same rfl (fun id n hp => hp) fun id n q hp hr hn hkept => ?_
      rw [s.admit_lookup r rest] at hr
      split at hr
      · next heq =>
          -- the admitted request has no planned round
          obtain ⟨p, hplan⟩ := Option.isSome_iff_exists.mp hp
          have hlt := I.plannedAdmitted id n p hplan r (hq ▸ List.mem_cons_self)
          omega
      · exact hkept q hr hn
  | plan req hact hrun hphase =>
      have hplans := s.planRound_planOf req
      refine O.same rfl (fun id n hp => ?_) fun id n r hp hr hn hkept => ?_
      · rw [hplans]
        split
        · rfl
        · exact hp
      · rw [s.planRound_lookup req] at hr
        rw [(s.planRound_frame req).2.2.2.2.1]
        split at hr
        · next heq =>
            cases hr
            subst heq
            -- the new round had no plan
            rw [(I.requests _ _ hact).unplanned n (by rw [← hn]; exact Nat.lt_succ_self _)] at hp
            cases hp
        · exact hkept r hr hn
  | issue s₁ req req' model seqLength info built g hact hrun hprep hgen =>
      exact O.issue I hact hprep hgen
  | finish modelId info req hinfo hid hact htask => exact O.finish I hinfo hid hact htask

/-! ## 6. Decisions and tasks -/

/-- **A decision for a pre-verification is issued as one**, of the length decided on, for the round
    the request is in. -/
theorem issueVerify_decided {s s' : SpecDecodeScheduler}
    (hmin : ∀ a, s.ahasd = some a → a.config.minPreverifyLength = 2) {req : LangRequest}
    (h : (s.decidePreVerify req).1 ≠ 0) (hs : s.issueVerify req = some s') :
    ∃ built, s'.modelQueue = s.modelQueue ++ [built] ∧ s'.modelMeta[built.id]? =
      some ⟨req.requestId, .preVerify, s.targetOrDraft.2, (s.decidePreVerify req).1, req.specRound,
        s.cycleCount⟩ := by
  obtain ⟨ahasd, hd⟩ := s.decidePreVerify_frame req
  obtain ⟨hpos, hlt⟩ := insertsPreVerify_of_decided hmin h
  unfold issueVerify at hs
  dsimp only at hs
  rw [if_pos ⟨hpos, hlt⟩] at hs
  obtain ⟨pim, modes, hframe⟩ := requestRankSwitch_frame
    { (s.decidePreVerify req).2 with
      preVerifiedInRound := (s.decidePreVerify req).2.preVerifiedInRound.insert req.requestId
        req.specRound } req.requestId 1
  unfold issueVerification at hs
  dsimp only at hs
  rw [hframe, hd] at hs
  obtain ⟨⟨built, g⟩, _, rfl⟩ := Option.map_eq_some_iff.mp hs
  refine ⟨built, rfl, (lookup_insert _ _ _ _).trans ?_⟩
  rw [if_pos rfl]
  rfl

/-- Without a target model the coordinator is left alone but for TVC's progress register. -/
theorem fallback_preVerifyBooks {c : Setup} {s : SpecDecodeScheduler} {h : List Event}
    (ht : c.targetModel.isSome = false) (hr : c.Reach s h) : BuiltBy c s ∧
      s.preVerifyBooks = c.ahasd.map AHASDIntegration.preVerifyBooks := by
  obtain ⟨s₀, hstart, hexec⟩ := hr
  have F := Setup.start_fresh hstart
  have hinv := hexec.invariant (P := fun s h => c.Reach s h ∧ BuiltBy c s ∧
    s.preVerifyBooks = c.ahasd.map AHASDIntegration.preVerifyBooks)
    ⟨⟨s₀, hstart, .start⟩, congrArg _ F.ahasd, congrArg _ F.ahasd⟩ ?_
  · exact hinv.2
  rintro s h a s' ⟨hr, hbuilt, hbooks⟩ hs
  have N := hr.fallback ht
  refine ⟨hr.exec (.one hs), ?_⟩
  rcases (N.sideways hs).beacon with hsame | ⟨npuCycle, hsame⟩
  · refine ⟨?_, (preVerifyBooks_congr hsame).trans hbooks⟩
    unfold BuiltBy
    rw [hsame]
    exact hbuilt
  · refine ⟨?_, (preVerifyBooks_same hsame fun a =>
      a.cycleNpuWithProgress_preVerifyBooks npuCycle).trans hbooks⟩
    unfold BuiltBy
    rw [hsame, Option.map_map, ← show s.ahasd.map AHASDIntegration.config = _ from hbuilt]
    exact Option.map_congr fun a _ => a.cycleNpuWithProgress_config npuCycle

end SpecDecodeScheduler

/-- The books of a coordinator the simulator has just built. -/
theorem Setup.ahasd_preVerifyBooks {c : Setup} {b : AHASDIntegration.PreVerifyBooks}
    (hb : c.ahasd.map AHASDIntegration.preVerifyBooks = some b) :
    b.decided = 0 ∧ (∀ n, b.prevented = some n → n = 0) ∧ b.tokens = 0 := by
  unfold Setup.ahasd at hb
  split at hb
  · cases hb
    refine ⟨rfl, fun n hn => ?_, rfl⟩
    unfold AHASDIntegration.preVerifyBooks AHASDIntegration.control AHASDIntegration.new at hn
    dsimp only at hn
    split at hn
    · cases hn
      rfl
    · cases hn
  · cases hb

section

open SpecDecodeScheduler

variable {c : Setup} {s : SpecDecodeScheduler} {h : List Event}

/-- **The counts in every run.** -/
theorem Setup.Reach.preVerifiesCounted (hr : c.Reach s h) : BuiltBy c s ∧ PreVerifiesCounted s h := by
  cases ht : c.targetModel.isSome with
  | true =>
      obtain ⟨_, C⟩ := hr.inv ht
      refine ⟨C.ahasd, hr.induct_rules ht (fun s₀ F => ?_) fun s h s' e I C P hrule =>
        P.rule I C hrule⟩
      have hbooks : ∀ b, s₀.preVerifyBooks = some b → b.decided = 0 ∧
          (∀ n, b.prevented = some n → n = 0) ∧ b.tokens = 0 := by
        intro b hb
        unfold SpecDecodeScheduler.preVerifyBooks at hb
        rw [F.ahasd] at hb
        exact Setup.ahasd_preVerifyBooks hb
      exact ⟨fun b hb => (hbooks b hb).1, fun b n hb hn => (hbooks b hb).2.1 n hn,
        fun b hb => (hbooks b hb).2.2⟩
  | false =>
      obtain ⟨hbuilt, hbooks⟩ := fallback_preVerifyBooks ht hr
      have N := hr.fallback ht
      -- the history holds autoregressive completions only
      have hissued : issuedOf .preVerify h = [] := by
        refine List.filterMap_eq_nil_iff.mpr fun x hx => ?_
        obtain ⟨ev, rfl, _⟩ := N.autoreg x hx
        rfl
      have hfinished : finishedOf .preVerify h = [] := by
        refine finishedOf_autoreg _ (fun ev hev => ?_) (by decide)
        obtain ⟨ev', heq, hauto⟩ := N.autoreg _ hev
        cases heq
        exact hauto
      refine ⟨hbuilt, ?_, ?_, ?_⟩
      · intro b hb
        rw [hissued]
        exact (Setup.ahasd_preVerifyBooks (hbooks.symm.trans hb)).1
      · intro b n hb hn
        rw [hissued]
        exact (Setup.ahasd_preVerifyBooks (hbooks.symm.trans hb)).2.1 n hn
      · intro b hb
        rw [hfinished]
        exact (Setup.ahasd_preVerifyBooks (hbooks.symm.trans hb)).2.2

theorem Setup.Reach.onceARound (hr : c.Reach s h) : ∀ id n, (preVerifiesOf id n h).length ≤ 1 := by
  cases ht : c.targetModel.isSome with
  | true =>
      have O : OnceARound s h := hr.induct ht (fun s₀ F => ⟨fun _ _ => Nat.zero_le 1,
        fun _ _ hne => absurd rfl hne, fun _ _ _ hne => absurd rfl hne⟩)
        fun s h s' e I _ O hm => O.move I hm
      exact O.once
  | false =>
      have N := hr.fallback ht
      intro id n
      have hissued : issuedOf .preVerify h = [] := by
        refine List.filterMap_eq_nil_iff.mpr fun x hx => ?_
        obtain ⟨ev, rfl, _⟩ := N.autoreg x hx
        rfl
      unfold preVerifiesOf
      rw [hissued]
      exact Nat.zero_le 1

/-- **Decisions, tasks and counters agree in every run.** A decision is for no pre-verification or
    for a strict prefix of the pending drafts within the maximum; each one is issued as a
    pre-verification of its length in its round, and no round has two; the coordinator and TVC count
    the tasks issued, and the tokens of those completed. -/
theorem decisions_become_tasks (hr : c.Reach s h) :
    (∀ a, s.ahasd = some a → ∀ kvLength pending,
      (a.decidePreVerify kvLength pending).1 = 0 ∨ 1 ≤ (a.decidePreVerify kvLength pending).1 ∧
        (a.decidePreVerify kvLength pending).1 ≤ a.config.preVerifyMax ∧
        (a.decidePreVerify kvLength pending).1 < pending) ∧
    (∀ t req t', BuiltBy c t → (t.decidePreVerify req).1 ≠ 0 → t.issueVerify req = some t' →
      ∃ built, t'.modelQueue = t.modelQueue ++ [built] ∧ t'.modelMeta[built.id]? =
        some ⟨req.requestId, .preVerify, t.targetOrDraft.2, (t.decidePreVerify req).1, req.specRound,
          t.cycleCount⟩) ∧
    (∀ id n, (preVerifiesOf id n h).length ≤ 1) ∧
    ∀ a, s.ahasd = some a → a.totalPreVerifies = (issuedOf .preVerify h).length ∧
      (∀ t, a.control = some t → t.preventedNpuIdles = (issuedOf .preVerify h).length) ∧
      a.totalPreverifyTokens = draftLengths (finishedOf .preVerify h) := by
  obtain ⟨hbuilt, P⟩ := hr.preVerifiesCounted
  refine ⟨fun a ha => AHASDIntegration.decidePreVerify_bounds (hbuilt.lengths ha).1,
    fun t req t' ht hne hs => issueVerify_decided (fun a ha => (ht.lengths ha).1) hne hs,
    hr.onceARound, fun a ha => ?_⟩
  have hbooks : s.preVerifyBooks = some a.preVerifyBooks := by
    unfold SpecDecodeScheduler.preVerifyBooks
    rw [ha]
    rfl
  refine ⟨P.decided _ hbooks, fun t ht => P.prevented _ _ hbooks ?_, P.tokens _ hbooks⟩
  unfold AHASDIntegration.preVerifyBooks
  rw [ht]
  rfl

/-- A run with a pre-verification in its second round. -/
theorem decisions_become_tasks_sample : ∃ s h, preVerifiedSetup.Reach s h ∧
    (issuedOf .preVerify h).length = 1 ∧ ∀ a, s.ahasd = some a → a.totalPreVerifies = 1 := by
  obtain ⟨s, h, hr, hfacts⟩ := Setup.exists_reach (c := preVerifiedSetup)
    (l := firstRoundCalls ++ finishing [7, 8, 9, 10, 11])
    (p := fun r => decide ((issuedOf .preVerify r.2).length = 1)) (by decide +kernel)
  have hone := of_decide_eq_true hfacts
  exact ⟨s, h, hr, hone, fun a ha => ((decisions_become_tasks hr).2.2.2 a ha).1.trans hone⟩

end

end Ahasd
