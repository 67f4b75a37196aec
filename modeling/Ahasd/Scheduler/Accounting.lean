/-
  File:      Ahasd/Scheduler/Accounting.lean
  Subject:   THE TOKEN COUNTERS of the coordinator and of VSKM over a run.

  * `draftsFinished`, `tokensVerified`, `committedFor`: what a history says about the tokens;
  * `TokensOk`: every drafted token is verified, or a draft of an open round;
    `draft_tokens_verified` is this for every run;
  * `CommitsOk`: VSKM, the coordinator and the requests agree on the committed tokens, when every
    request generates a token at least; `committed_tokens` is this for every run.
-/
import Mathlib.Algebra.BigOperators.Group.Finset.Basic
import Mathlib.Algebra.BigOperators.Group.Finset.Piecewise
import Ahasd.Scheduler.CacheLengths

namespace Ahasd

open Std Transition OrderedMap

/-! ## 1. What a history says -/

/-- The drafts a history finished. -/
def draftsFinished (h : List Event) : Nat :=
  h.countP fun
    | .finished e => e.taskType = .draft
    | _ => false

/-- The tokens its verifications checked. -/
def tokensVerified (h : List Event) : Nat :=
  (h.map fun
    | .finished e => if e.taskType = .verify then max 1 e.draftLength else 0
    | _ => 0).sum

/-- The tokens the verifications of a request committed. -/
def committedFor (id : Nat) (h : List Event) : Nat :=
  ((completions id h).map fun e =>
    if e.taskType = .verify then e.currentLength - e.previousLength else 0).sum

section History

variable (id : Nat) (h : List Event)

@[simp] theorem draftsFinished_issued (built : Model) (info : ModelMeta) :
    draftsFinished (h ++ [.issued built info]) = draftsFinished h :=
  List.countP_append.trans (Nat.add_zero _)

@[simp] theorem draftsFinished_planned (requestId round : Nat) (hint : ℚ)
    (preds : List (Nat × Bool)) :
    draftsFinished (h ++ [.planned requestId round hint preds]) = draftsFinished h :=
  List.countP_append.trans (Nat.add_zero _)

theorem draftsFinished_finished (e : LangStepEvent) :
    draftsFinished (h ++ [.finished e]) =
      draftsFinished h + if e.taskType = .draft then 1 else 0 := by
  unfold draftsFinished
  rw [List.countP_append, List.countP_singleton]
  by_cases hty : e.taskType = .draft <;> simp [hty]

@[simp] theorem tokensVerified_issued (built : Model) (info : ModelMeta) :
    tokensVerified (h ++ [.issued built info]) = tokensVerified h := by
  simp [tokensVerified]

@[simp] theorem tokensVerified_planned (requestId round : Nat) (hint : ℚ)
    (preds : List (Nat × Bool)) :
    tokensVerified (h ++ [.planned requestId round hint preds]) = tokensVerified h := by
  simp [tokensVerified]

theorem tokensVerified_finished (e : LangStepEvent) :
    tokensVerified (h ++ [.finished e]) =
      tokensVerified h + if e.taskType = .verify then max 1 e.draftLength else 0 := by
  simp [tokensVerified]

@[simp] theorem committedFor_issued (built : Model) (info : ModelMeta) :
    committedFor id (h ++ [.issued built info]) = committedFor id h := by
  unfold committedFor
  rw [completions_issued]

@[simp] theorem committedFor_planned (requestId round : Nat) (hint : ℚ)
    (preds : List (Nat × Bool)) :
    committedFor id (h ++ [.planned requestId round hint preds]) = committedFor id h := by
  unfold committedFor
  rw [completions_planned]

theorem committedFor_finished (e : LangStepEvent) :
    committedFor id (h ++ [.finished e]) = committedFor id h +
      if e.requestId = id ∧ e.taskType = .verify then e.currentLength - e.previousLength
      else 0 := by
  unfold committedFor
  rw [completions_finished]
  by_cases hid : e.requestId = id <;> simp [hid]

/-- An event commits tokens of its own request only, so the sum over the requests grows by them. -/
theorem sum_committedFor_finished {n : Nat} (e : LangStepEvent) (hid : e.requestId < n) :
    ∑ id ∈ Finset.range n, committedFor id (h ++ [.finished e]) =
      ∑ id ∈ Finset.range n, committedFor id h +
        if e.taskType = .verify then e.currentLength - e.previousLength else 0 := by
  simp only [committedFor_finished, Finset.sum_add_distrib]
  congr 1
  rw [Finset.sum_eq_single_of_mem e.requestId (Finset.mem_range.mpr hid)]
  · simp
  · intro id _ hne
    exact if_neg fun hc => hne hc.1.symm

end History

namespace SpecDecodeScheduler

/-! ## 2. Drafted and verified tokens -/

/-- The drafts of the open rounds. -/
def openDraftsTotal (s : SpecDecodeScheduler) : Nat :=
  sumBy s.activeRequests fun _ => LangRequest.openDrafts

/-- **The token counters balance**: a verified token is accepted or rejected, a drafted one is
    verified or open, and both totals are those of the history. -/
structure Balanced (t : AHASDIntegration.TokenCounters) (openDrafts : Nat) (h : List Event) :
    Prop where
  split : t.verified = t.accepted + t.rejected
  drafted : t.pimDraft = t.verified + openDrafts
  draftsCounted : t.pimDraft = draftsFinished h
  verifiedCounted : t.verified = tokensVerified h

/-- The counters of the coordinator balance, when there is one. -/
def TokensOk (s : SpecDecodeScheduler) (h : List Event) : Prop :=
  ∀ a, s.ahasd = some a → Balanced a.tokens s.openDraftsTotal h

/-- A step that keeps the counters and the open drafts, and finishes nothing. -/
theorem TokensOk.frame {s s' : SpecDecodeScheduler} {h h' : List Event} (T : TokensOk s h)
    {f : AHASDIntegration → AHASDIntegration} (hahasd : s'.ahasd = s.ahasd.map f)
    (hf : ∀ a, (f a).tokens = a.tokens) (hopen : s'.openDraftsTotal = s.openDraftsTotal)
    (hdrafts : draftsFinished h' = draftsFinished h)
    (hverified : tokensVerified h' = tokensVerified h) : TokensOk s' h' := by
  intro a' ha'
  rw [hahasd] at ha'
  obtain ⟨a, ha, rfl⟩ := Option.map_eq_some_iff.mp ha'
  obtain ⟨split, drafted, draftsCounted, verifiedCounted⟩ := T a ha
  rw [hf, hopen]
  exact ⟨split, drafted, draftsCounted.trans hdrafts.symm, verifiedCounted.trans hverified.symm⟩

/-- A replaced entry with the drafts the old one had. -/
theorem openDraftsTotal_set {s s' : SpecDecodeScheduler} {id : Nat} {o o' : Option LangRequest}
    (h : s.activeRequests[id]? = o)
    (h' : ∀ k : Nat, s'.activeRequests[k]? = if k = id then o' else s.activeRequests[k]?) :
    s'.openDraftsTotal + (o.map LangRequest.openDrafts).getD 0 =
      s.openDraftsTotal + (o'.map LangRequest.openDrafts).getD 0 :=
  sumBy_set (fun _ => LangRequest.openDrafts) h h'

/-- The open drafts a task closes or opens are those its tokens account for. -/
theorem TaskDone.tokens {s : SpecDecodeScheduler} {req : LangRequest} {info : ModelMeta}
    {after : Option LangRequest} (htask : TaskDone s req info after)
    (t : AHASDIntegration.TokenCounters) :
    (s.taskTokens req info t).pimDraft + t.verified + req.openDrafts =
      t.pimDraft + (s.taskTokens req info t).verified +
        (after.map LangRequest.openDrafts).getD 0 := by
  have hclosed : req.specPhase = .awaitVerify → req.openDrafts = req.draftedInRound := fun h =>
    LangRequest.openDrafts_eq (.inr h)
  unfold taskTokens
  cases htask with
  | prompt hty hphase hround =>
      rw [hty, LangRequest.openDrafts_zero (LangRequest.not_inRound (.inl hphase))]
      rfl
  | draft hty hphase hround hpos hlength hlt =>
      rw [hty, LangRequest.openDrafts_eq (.inl hphase)]
      simp only [Option.map_some, Option.getD_some, draftedRequest_openDrafts]
      omega
  | verify hty hphase hround hpos hlength hdrafted hplanned hnext =>
      have hopen := LangRequest.openDrafts_zero (LangRequest.not_inRound (.inr hnext))
      have hreq := hclosed hphase
      rw [hty]
      simp only [Option.map_some, Option.getD_some, hopen]
      omega
  | retire hty hphase hround hpos hlength hdrafted hplanned =>
      have hreq := hclosed hphase
      rw [hty]
      simp only [Option.map_none, Option.getD_none]
      omega
  | preVerify hty hphase hround hpos hdrafted hlength hdone =>
      rw [hty]
      rfl

theorem TokensOk.finish {s : SpecDecodeScheduler} {h : List Event} (T : TokensOk s h)
    {modelId : Nat} {info : ModelMeta} {req : LangRequest} (hid : info.requestId = req.requestId)
    (hact : s.activeRequests[req.requestId]? = some req)
    (htask : TaskDone s req info (s.afterTask req info)) :
    TokensOk (s.completed modelId req info).2
      (h ++ [.finished (s.completed modelId req info).1]) := by
  obtain ⟨_, hety, _, helength, _⟩ := s.completed_event modelId req info
  have htotal := openDraftsTotal_set hact (s.completed_activeRequests modelId req info hid hact)
  have hafter : (((s.afterTask req info).map fun r => { r with running := false }).map
      LangRequest.openDrafts).getD 0 = ((s.afterTask req info).map LangRequest.openDrafts).getD 0 :=
    congrArg (Option.getD · 0) (Option.map_map _ _ _)
  rw [hafter, Option.map_some, Option.getD_some] at htotal
  intro a' ha'
  rw [completed_ahasd] at ha'
  obtain ⟨a, ha, rfl⟩ := Option.map_eq_some_iff.mp ha'
  obtain ⟨hsplit, hdrafted, hdrafts, hverified⟩ := T a ha
  rw [taskAhasd_tokens]
  have htokens := htask.tokens a.tokens
  refine ⟨?_, by omega, ?_, ?_⟩
  · have hle := s.acceptedBy_le req info
    unfold taskTokens
    cases info.taskType with
    | verify =>
        dsimp only
        omega
    | prompt => exact hsplit
    | draft => exact hsplit
    | preVerify => exact hsplit
    | autoreg => exact hsplit
  · rw [draftsFinished_finished, hety, ← hdrafts]
    unfold taskTokens
    cases info.taskType <;> rfl
  · rw [tokensVerified_finished, hety, helength, ← hverified]
    unfold taskTokens
    cases info.taskType <;> rfl

/-- **Every move keeps the counters.** -/
theorem TokensOk.move {s s' : SpecDecodeScheduler} {h e : List Event} (I : ProtocolOk s)
    (T : TokensOk s h) (hm : Move s s' e) : TokensOk s' (h ++ e) := by
  cases hm with
  | minor s' hm =>
      obtain ⟨tvc, htvc, hsame⟩ := hm.ahasd
      rw [List.append_nil]
      refine T.frame htvc (fun a => (hsame a).2.1) ?_ rfl rfl
      unfold openDraftsTotal
      rw [hm.active]
  | admitOne r rest hq =>
      rw [List.append_nil]
      exact T.frame (f := id) Option.map_id'.symm (fun _ => rfl)
        (openDraftsTotal_set (I.admit_fresh hq) (s.admit_lookup r rest)) rfl rfl
  | plan req hact hrun hphase =>
      obtain ⟨ssrc, deferred, heq⟩ := s.planRound_eq req
      have htotal := openDraftsTotal_set hact (s.planRound_lookup req)
      have hopen := LangRequest.openDrafts_zero (LangRequest.not_inRound (.inr hphase))
      rw [Option.map_some, Option.getD_some, hopen] at htotal
      refine T.frame (f := s.planAhasd req) (by rw [heq]) (s.planAhasd_tokens req) htotal ?_ ?_
      · exact draftsFinished_planned _ _ _ _ _
      · exact tokensVerified_planned _ _ _ _ _
  | issue s₁ req req' model seqLength info built g hact hrun hprep hgen =>
      obtain ⟨tvc, htvc, hsame⟩ := hprep.ahasd_map
      obtain ⟨v, hactive⟩ := (hprep.launched hgen).active
      have htotal := openDraftsTotal_set hact hactive
      refine T.frame htvc (fun a => (hsame a).2.1) (Nat.add_right_cancel htotal) ?_ ?_
      · exact draftsFinished_issued _ _ _
      · exact tokensVerified_issued _ _ _
  | finish modelId info req hinfo hid hact htask => exact T.finish hid hact htask

/-! ## 3. Committed tokens -/

/-- What the row gives the request before it generates: the cached tokens, and after its task the
    prompt. -/
def prefill (row : RequestRow) (r : LangRequest) : Nat :=
  if r.specPhase = .promptPending then row.cachedLength else row.cachedLength + row.promptLength

/-- **The requests, VSKM, the coordinator and the history agree on the committed tokens.** -/
structure CommitsOk (c : Setup) (s : SpecDecodeScheduler) (h : List Event) : Prop where
  coordinator : ∀ a, s.ahasd = some a → a.tokens.accepted = s.vskm.stats.acceptedTokens
  total : s.vskm.stats.acceptedTokens = ∑ id ∈ Finset.range c.rows.length, committedFor id h
  queued : ∀ r ∈ s.requestQueue, committedFor r.requestId h = 0
  versions : ∀ (id : Nat) (r : LangRequest), s.activeRequests[id]? = some r →
    r.specPhase ≠ .promptPending → s.vskm.versionOf id = some (r.currentLength, r.openDrafts)
  lengths : ∀ (id : Nat) (r : LangRequest) (row : RequestRow), s.activeRequests[id]? = some r →
    c.rows[id]? = some row → r.currentLength = prefill row r + committedFor id h

/-- **A verification of a bounded request commits all it accepts**: the clamps to the drafts and to
    the target do not bite, and VSKM has the new length. -/
theorem verified_commits {s : SpecDecodeScheduler} {req : LangRequest} {info : ModelMeta}
    (hty : info.taskType = .verify) (hphase : req.specPhase = .awaitVerify)
    (hlength : info.draftLengthAtIssue = req.plannedDraftLength)
    (hdrafted : req.draftedInRound = req.plannedDraftLength)
    (hplanned : 1 ≤ req.plannedDraftLength) (hb : req.Bounded)
    (hversion : s.vskm.versionOf req.requestId = some (req.currentLength, req.openDrafts)) :
    (s.applyVerifyResult req (s.acceptedBy req info)).currentLength =
      req.currentLength + s.acceptedBy req info ∧
    (s.taskVskm req info).versionOf req.requestId =
      some ((s.applyVerifyResult req (s.acceptedBy req info)).currentLength, 0) ∧
    (s.taskVskm req info).stats.acceptedTokens =
      s.vskm.stats.acceptedTokens + s.acceptedBy req info := by
  have hle := s.acceptedBy_le req info
  unfold LangRequest.Bounded at hb
  rw [hphase] at hb
  dsimp only at hb
  have hnew : (s.applyVerifyResult req (s.acceptedBy req info)).currentLength =
      req.currentLength + s.acceptedBy req info := by
    rw [applyVerifyResult_length]
    omega
  have hclamp : min (s.acceptedBy req info) (max (max 1 info.draftLengthAtIssue) req.openDrafts) =
      s.acceptedBy req info := Nat.min_eq_left (by omega)
  have hcommit := s.vskm.completeVerify_versionOf req.requestId hversion
    (max 1 info.draftLengthAtIssue) (s.acceptedBy req info)
  rw [hclamp] at hcommit
  unfold taskVskm
  rw [hty, hnew]
  exact ⟨rfl, hcommit⟩

/-- The version of a request after its task is the request's. -/
theorem TaskDone.version {s : SpecDecodeScheduler} {req r : LangRequest} {info : ModelMeta}
    (htask : TaskDone s req info (some r)) (hb : req.Bounded)
    (hversion : req.specPhase ≠ .promptPending →
      s.vskm.versionOf req.requestId = some (req.currentLength, req.openDrafts)) :
    (s.taskVskm req info).versionOf req.requestId = some (r.currentLength, r.openDrafts) := by
  cases htask with
  | prompt hty hphase hround =>
      unfold taskVskm
      rw [hty]
      exact (s.vskm.resetRequest_versionOf _ _ _).trans (if_pos rfl)
  | draft hty hphase hround hpos hlength hlt =>
      have hold := hversion (by rw [hphase]; simp)
      rw [LangRequest.openDrafts_eq (.inl hphase)] at hold
      unfold taskVskm
      rw [hty, s.draftedRequest_openDrafts]
      exact s.vskm.draftToken_versionOf _ hold
  | verify hty hphase hround hpos hlength hdrafted hplanned hnext =>
      obtain ⟨_, hnew, _⟩ := verified_commits hty hphase hlength hdrafted hplanned hb
        (hversion (by rw [hphase]; simp))
      rw [hnew, LangRequest.openDrafts_zero (LangRequest.not_inRound (.inr hnext))]
  | preVerify hty hphase hround hpos hdrafted hlength hdone =>
      unfold taskVskm
      rw [hty]
      exact (s.vskm.preVerify_versionOf _ _).trans (hversion (by rw [hphase]; simp))

/-- The versions of the other requests stay. -/
theorem taskVskm_versionOf_other (s : SpecDecodeScheduler) (req : LangRequest) (info : ModelMeta)
    {id : Nat} (hne : id ≠ req.requestId) :
    (s.taskVskm req info).versionOf id = s.vskm.versionOf id := by
  unfold taskVskm
  cases info.taskType with
  | prompt => exact (s.vskm.resetRequest_versionOf _ _ _).trans (if_neg hne)
  | draft => exact s.vskm.draftToken_versionOf_other _ _ hne
  | verify => exact s.vskm.completeVerify_versionOf_other _ _ _ _ hne
  | preVerify => exact s.vskm.preVerify_versionOf _ _
  | autoreg => rfl

/-- What a task adds to the accepted tokens of VSKM, to those of the coordinator, and to the
    committed tokens of its request. -/
def taskCommits (s : SpecDecodeScheduler) (req : LangRequest) (info : ModelMeta) : Nat :=
  if info.taskType = .verify then s.acceptedBy req info else 0

theorem taskTokens_accepted (s : SpecDecodeScheduler) (req : LangRequest) (info : ModelMeta)
    (t : AHASDIntegration.TokenCounters) :
    (s.taskTokens req info t).accepted = t.accepted + s.taskCommits req info := by
  unfold taskTokens taskCommits
  cases info.taskType <;> rfl

/-- What the task commits, VSKM counts; and it is what the verification adds to the request. -/
theorem TaskDone.commits {s : SpecDecodeScheduler} {req : LangRequest} {info : ModelMeta}
    {after : Option LangRequest} (htask : TaskDone s req info after) (hb : req.Bounded)
    (hversion : req.specPhase ≠ .promptPending →
      s.vskm.versionOf req.requestId = some (req.currentLength, req.openDrafts)) :
    (s.taskVskm req info).stats.acceptedTokens =
        s.vskm.stats.acceptedTokens + s.taskCommits req info ∧
      (info.taskType = .verify →
        (s.applyVerifyResult req (s.acceptedBy req info)).currentLength =
            req.currentLength + s.taskCommits req info ∧
          (s.taskVskm req info).versionOf req.requestId =
            some ((s.applyVerifyResult req (s.acceptedBy req info)).currentLength, 0)) := by
  unfold taskCommits
  cases htask with
  | prompt hty hphase hround =>
      unfold taskVskm
      rw [hty]
      exact ⟨rfl, fun h => by cases h⟩
  | draft hty hphase hround hpos hlength hlt =>
      unfold taskVskm
      rw [hty]
      exact ⟨rfl, fun h => by cases h⟩
  | verify hty hphase hround hpos hlength hdrafted hplanned hnext =>
      obtain ⟨hnew, hcommit, hcount⟩ := verified_commits hty hphase hlength hdrafted hplanned hb
        (hversion (by rw [hphase]; simp))
      rw [if_pos hty]
      exact ⟨hcount, fun _ => ⟨hnew, hcommit⟩⟩
  | retire hty hphase hround hpos hlength hdrafted hplanned =>
      obtain ⟨hnew, hcommit, hcount⟩ := verified_commits hty hphase hlength hdrafted hplanned hb
        (hversion (by rw [hphase]; simp))
      rw [if_pos hty]
      exact ⟨hcount, fun _ => ⟨hnew, hcommit⟩⟩
  | preVerify hty hphase hround hpos hdrafted hlength hdone =>
      unfold taskVskm
      rw [hty]
      exact ⟨s.vskm.preVerify_acceptedTokens _, fun h => by cases h⟩

/-- The length of a request after its task, over what its row gave it. -/
theorem TaskDone.prefill {s : SpecDecodeScheduler} {req r : LangRequest} {info : ModelMeta}
    {row : RequestRow} (htask : TaskDone s req info (some r))
    (hprompt : req.promptLength = row.promptLength)
    (hcommits : info.taskType = .verify →
      (s.applyVerifyResult req (s.acceptedBy req info)).currentLength =
        req.currentLength + s.taskCommits req info) :
    r.currentLength + prefill row req =
      req.currentLength + s.taskCommits req info + prefill row r := by
  have hnone : info.taskType ≠ .verify → s.taskCommits req info = 0 := fun h => if_neg h
  unfold SpecDecodeScheduler.prefill
  cases htask with
  | prompt hty hphase hround =>
      rw [hnone (by simp [hty]), if_pos hphase,
        if_neg (show (s.promptedRequest req).specPhase ≠ .promptPending from by simp [promptedRequest,
          LangRequest.resizeCache])]
      show req.currentLength + req.promptLength + row.cachedLength = _
      omega
  | draft hty hphase hround hpos hlength hlt =>
      have hround' : (s.draftedRequest req).specPhase ≠ .promptPending := by
        rcases s.draftedRequest_inRound req with h | h <;> simp [h]
      rw [hnone (by simp [hty]), if_neg (by simp [hphase]), if_neg hround']
      rfl
  | verify hty hphase hround hpos hlength hdrafted hplanned hnext =>
      rw [hcommits hty, if_neg (by simp [hphase]), if_neg (by simp [hnext])]
  | preVerify hty hphase hround hpos hdrafted hlength hdone =>
      rw [hnone (by simp [hty])]
      rfl

theorem CommitsOk.finish {c : Setup} {s : SpecDecodeScheduler} {h : List Event}
    (I : ProtocolOk s) (C : Configured c s) (B : BoundsOk s) (K : CommitsOk c s h) {modelId : Nat}
    {info : ModelMeta} {req : LangRequest} (hid : info.requestId = req.requestId)
    (hact : s.activeRequests[req.requestId]? = some req)
    (htask : TaskDone s req info (s.afterTask req info)) :
    CommitsOk c (s.completed modelId req info).2
      (h ++ [.finished (s.completed modelId req info).1]) := by
  have hactive := s.completed_activeRequests modelId req info hid hact
  obtain ⟨heid, hety, _, _, hprevious, _, hcurrent⟩ := s.completed_event modelId req info
  obtain ⟨hcount, hverify⟩ := htask.commits (B _ req hact) (K.versions _ req hact)
  -- the tokens the event commits are those of the task
  have hevent : (if (s.completed modelId req info).1.taskType = .verify then
      (s.completed modelId req info).1.currentLength -
        (s.completed modelId req info).1.previousLength else 0) = s.taskCommits req info := by
    rw [hety]
    split
    · next hty => rw [hcurrent hty, hprevious, (hverify hty).1, Nat.add_sub_cancel_left]
    · next hty => exact (if_neg hty).symm
  obtain ⟨row, hrow, hprompt, _⟩ := C.active _ req hact
  have hlt := C.request_lt hact
  have hfor : ∀ id : Nat, committedFor id (h ++ [.finished (s.completed modelId req info).1]) =
      committedFor id h + if id = req.requestId then s.taskCommits req info else 0 := by
    intro id
    rw [committedFor_finished, heid, ← hevent]
    by_cases heq : id = req.requestId
    · simp [heq]
    · rw [if_neg fun hc => heq hc.1.symm, if_neg heq]
  refine ⟨fun a' ha' => ?_, ?_, fun r hr => ?_, fun id q hq hphase => ?_,
    fun id q row' hq hrow' => ?_⟩
  · rw [completed_ahasd] at ha'
    obtain ⟨a, ha, rfl⟩ := Option.map_eq_some_iff.mp ha'
    rw [taskAhasd_tokens, taskTokens_accepted, K.coordinator a ha, completed_vskm, hcount]
  · rw [completed_vskm, hcount, K.total,
      sum_committedFor_finished h (s.completed modelId req info).1 (heid ▸ hlt), hevent]
  · rw [completed_requestQueue] at hr
    have hne : r.requestId ≠ req.requestId :=
      Nat.ne_of_gt ((I.requests _ _ hact).admitted r hr)
    rw [hfor, if_neg hne, K.queued r hr]
  · rw [completed_vskm]
    rw [hactive] at hq
    split at hq
    · next heq =>
        obtain ⟨r, hr, rfl⟩ := Option.map_eq_some_iff.mp hq
        rw [heq]
        exact (hr ▸ htask).version (B _ req hact) (K.versions _ req hact)
    · next hne => exact (s.taskVskm_versionOf_other req info hne).trans (K.versions id q hq hphase)
  · rw [hfor]
    rw [hactive] at hq
    split at hq
    · next heq =>
        obtain ⟨r, hr, rfl⟩ := Option.map_eq_some_iff.mp hq
        subst heq
        rw [hrow, Option.some.injEq] at hrow'
        subst hrow'
        have hold := K.lengths _ req row hact hrow
        have hnew := (hr ▸ htask).prefill hprompt fun hty => (hverify hty).1
        rw [if_pos rfl]
        show r.currentLength = prefill row r + _
        omega
    · next hne =>
        rw [if_neg hne, Nat.add_zero]
        exact K.lengths id q row' hq hrow'

/-- **Every move keeps the agreement.** -/
theorem CommitsOk.move {c : Setup} {s s' : SpecDecodeScheduler} {h e : List Event}
    (I : ProtocolOk s) (C : Configured c s) (B : BoundsOk s) (K : CommitsOk c s h)
    (hm : Move s s' e) : CommitsOk c s' (h ++ e) := by
  cases hm with
  | minor s' hm =>
      obtain ⟨tvc, htvc, hsame⟩ := hm.ahasd
      rw [List.append_nil]
      refine ⟨fun a' ha' => ?_, by rw [hm.vskm]; exact K.total, by rw [hm.queue]; exact K.queued,
        by rw [hm.active, hm.vskm]; exact K.versions, by rw [hm.active]; exact K.lengths⟩
      rw [htvc] at ha'
      obtain ⟨a, ha, rfl⟩ := Option.map_eq_some_iff.mp ha'
      rw [(hsame a).2.1, hm.vskm]
      exact K.coordinator a ha
  | admitOne r rest hq =>
      have hactive := s.admit_lookup r rest
      rw [List.append_nil]
      refine ⟨K.coordinator, K.total, fun q hqr => K.queued q (hq ▸ List.mem_cons_of_mem r hqr),
        fun id q hact hphase => ?_, fun id q row hact hrow => ?_⟩
      · rw [hactive] at hact
        split at hact
        · cases hact
          exact absurd rfl hphase
        · exact K.versions id q hact hphase
      · rw [hactive] at hact
        split at hact
        · next heq =>
            cases hact
            obtain ⟨_, row', hrow', hcached⟩ := C.queued r (hq ▸ List.mem_cons_self)
            rw [heq, hrow', Option.some.injEq] at hrow
            subst hrow
            rw [heq, K.queued r (hq ▸ List.mem_cons_self)]
            exact hcached
        · exact K.lengths id q row hact hrow
  | plan req hact hrun hphase =>
      obtain ⟨ssrc, deferred, heq⟩ := s.planRound_eq req
      have hactive := s.planRound_lookup req
      have hvskm : (s.planRound req).2.vskm = s.vskm.beginRound req.requestId (req.specRound + 1)
          req.currentLength (s.pickDraftLength req).1 := by rw [heq]
      refine ⟨fun a' ha' => ?_, ?_, fun r hr => ?_, fun id q hq hqphase => ?_,
        fun id q row hq hrow => ?_⟩
      · rw [heq] at ha'
        obtain ⟨a, ha, rfl⟩ := Option.map_eq_some_iff.mp ha'
        rw [s.planAhasd_tokens, hvskm]
        exact K.coordinator a ha
      · rw [hvskm]
        simp only [committedFor_planned]
        exact K.total
      · rw [committedFor_planned]
        rw [heq] at hr
        exact K.queued r hr
      · rw [hvskm, VSKM.beginRound_versionOf]
        rw [hactive] at hq
        split at hq
        · next hid =>
            cases hq
            exact if_pos hid
        · next hid => exact (if_neg hid).trans (K.versions id q hq hqphase)
      · rw [committedFor_planned]
        rw [hactive] at hq
        split at hq
        · next hid =>
            cases hq
            have hold := K.lengths _ req row hact (hid ▸ hrow)
            unfold SpecDecodeScheduler.prefill at hold
            rw [if_neg (by simp [hphase])] at hold
            rw [hid]
            exact hold
        · exact K.lengths id q row hq hrow
  | issue s₁ req req' model seqLength info built g hact hrun hprep hgen =>
      have L := hprep.launched hgen
      obtain ⟨v, hactive⟩ := L.active
      obtain ⟨tvc, htvc, hsame⟩ := hprep.ahasd_map
      refine ⟨fun a' ha' => ?_, ?_, fun r hr => ?_, fun id q hq hqphase => ?_,
        fun id q row hq hrow => ?_⟩
      · change s₁.ahasd = _ at ha'
        rw [htvc] at ha'
        obtain ⟨a, ha, rfl⟩ := Option.map_eq_some_iff.mp ha'
        rw [(hsame a).2.1, L.vskm]
        exact K.coordinator a ha
      · rw [L.vskm]
        simp only [committedFor_issued]
        exact K.total
      · rw [committedFor_issued]
        rw [L.queue] at hr
        exact K.queued r hr
      · rw [L.vskm]
        rw [hactive] at hq
        split at hq
        · next hid =>
            cases hq
            rw [hid]
            exact K.versions _ req hact hqphase
        · exact K.versions id q hq hqphase
      · rw [committedFor_issued]
        rw [hactive] at hq
        split at hq
        · next hid =>
            cases hq
            rw [hid]
            exact K.lengths _ req row hact (hid ▸ hrow)
        · exact K.lengths id q row hq hrow
  | finish modelId info req hinfo hid hact htask => exact K.finish I C B hid hact htask

/-! ## 4. Every run -/

/-- Without speculation nothing is counted. -/
theorem Fallback.tokens_zero {c : Setup} {s : SpecDecodeScheduler} {h : List Event}
    (N : Fallback c s h) {a : AHASDIntegration} (ha : s.ahasd = some a) :
    a.tokens = ⟨0, 0, 0, 0⟩ := by
  have hsame := N.tokens
  rw [ha] at hsame
  unfold Setup.ahasd at hsame
  split at hsame
  · exact Option.some.inj hsame
  · cases hsame

theorem Fallback.balanced {c : Setup} {s : SpecDecodeScheduler} {h : List Event}
    (N : Fallback c s h) {a : AHASDIntegration} (ha : s.ahasd = some a) :
    Balanced a.tokens 0 h := by
  have hdrafts : draftsFinished h = 0 := by
    refine List.countP_eq_zero.mpr fun x hx => ?_
    obtain ⟨e, rfl, hty⟩ := N.autoreg x hx
    simp [hty]
  have hverified : tokensVerified h = 0 := by
    refine List.sum_eq_zero fun n hn => ?_
    obtain ⟨x, hx, rfl⟩ := List.mem_map.mp hn
    obtain ⟨e, rfl, hty⟩ := N.autoreg x hx
    simp [hty]
  rw [N.tokens_zero ha]
  exact ⟨rfl, rfl, hdrafts.symm, hverified.symm⟩

/-- The completions of a run without speculation are autoregressive. -/
theorem Fallback.completions {c : Setup} {s : SpecDecodeScheduler} {h : List Event}
    (N : Fallback c s h) {id : Nat} {e : LangStepEvent} (he : e ∈ completions id h) :
    e.taskType = .autoreg := by
  obtain ⟨x, hx, hsome⟩ := List.mem_filterMap.mp he
  obtain ⟨ev, rfl, hty⟩ := N.autoreg x hx
  dsimp only at hsome
  split at hsome
  · cases hsome
    exact hty
  · cases hsome

theorem Fallback.unverifiedDrafts {c : Setup} {s : SpecDecodeScheduler} {h : List Event}
    (N : Fallback c s h) (id : Nat) : unverifiedDrafts id h = 0 := by
  refine List.foldlRecOn (motive := (· = 0)) _ _ rfl fun n hn e he => ?_
  unfold countDraft
  rw [N.completions he]
  exact hn

theorem Fallback.committedFor {c : Setup} {s : SpecDecodeScheduler} {h : List Event}
    (N : Fallback c s h) (id : Nat) : committedFor id h = 0 := by
  refine List.sum_eq_zero fun n hn => ?_
  obtain ⟨e, he, rfl⟩ := List.mem_map.mp hn
  exact if_neg (by rw [N.completions he]; simp)

end SpecDecodeScheduler

section

open SpecDecodeScheduler

variable {c : Setup} {s : SpecDecodeScheduler} {h : List Event}

/-- **The counters of a run balance.** -/
theorem Setup.Reach.balanced (hr : c.Reach s h) {a : AHASDIntegration} (ha : s.ahasd = some a) :
    Balanced a.tokens (sumBy s.activeRequests fun id _ => unverifiedDrafts id h) h := by
  cases ht : c.targetModel.isSome with
  | false =>
      have N := hr.fallback ht
      rw [sumBy_eq_zero fun id _ _ => N.unverifiedDrafts id]
      exact N.balanced ha
  | true =>
      have L := hr.lengths ht
      have T : TokensOk s h := by
        refine hr.induct ht (P := fun s h => TokensOk s h) (fun s₀ F a ha => ?_)
          fun s h s' e I _ T hm => T.move I hm
        rw [F.ahasd] at ha
        unfold Setup.ahasd at ha
        split at ha
        · cases ha
          unfold openDraftsTotal
          rw [F.active]
          exact ⟨rfl, rfl, rfl, rfl⟩
        · cases ha
      rw [sumBy_congr_fun (g := fun _ => LangRequest.openDrafts) L.drafted]
      exact T a ha

/-- **Every drafted token is verified exactly once**: in every reachable state the verified tokens
    are the accepted and the rejected ones, and the drafted tokens are the verified ones and the
    drafts of the open rounds; both totals are those of the history, where a pre-verification counts
    nothing; and with no round open the two are equal. -/
theorem draft_tokens_verified (hr : c.Reach s h) {a : AHASDIntegration} (ha : s.ahasd = some a) :
    a.totalVerifiedDraftTokens = a.totalAcceptedTokens + a.totalRejectedDraftTokens ∧
    a.totalPimDraftTokens = a.totalVerifiedDraftTokens +
      sumBy s.activeRequests (fun id _ => unverifiedDrafts id h) ∧
    a.totalPimDraftTokens = draftsFinished h ∧ a.totalVerifiedDraftTokens = tokensVerified h ∧
    ((∀ (id : Nat) (r : LangRequest), s.activeRequests[id]? = some r → unverifiedDrafts id h = 0) →
      a.totalPimDraftTokens = a.totalVerifiedDraftTokens) := by
  obtain ⟨hsplit, hdrafted, hdrafts, hverified⟩ := hr.balanced ha
  refine ⟨hsplit, hdrafted, hdrafts, hverified, fun hquiet => ?_⟩
  rw [sumBy_eq_zero hquiet, Nat.add_zero] at hdrafted
  exact hdrafted

/-- Two drafts into a round of three: two tokens are drafted, and none is verified. -/
theorem draft_tokens_verified_sample : ∃ s h,
    (sampleSetup [⟨0, 4, 6, 1⟩] [(⟨0, 1⟩, ⟨3, 0, 3⟩)]).Reach s h ∧ ∃ a, s.ahasd = some a ∧
      a.totalPimDraftTokens = 2 ∧ a.totalPimDraftTokens = a.totalVerifiedDraftTokens +
        sumBy s.activeRequests (fun id _ => unverifiedDrafts id h) := by
  obtain ⟨s, h, hr, hfacts⟩ := Setup.exists_reach
    (c := sampleSetup [⟨0, 4, 6, 1⟩] [(⟨0, 1⟩, ⟨3, 0, 3⟩)]) (l := finishing [2, 3, 4])
    (p := fun r => r.1.ahasd.any fun a => a.totalPimDraftTokens = 2) (by decide +kernel)
  obtain ⟨a, ha, htwo⟩ := (Option.any_eq_true _ _).mp hfacts
  obtain ⟨_, hdrafted, _⟩ := draft_tokens_verified hr ha
  exact ⟨s, h, hr, a, ha, of_decide_eq_true htwo, hdrafted⟩

/-! ## 5. Committed tokens of a run -/

theorem Setup.Reach.commits (ht : c.targetModel.isSome = true)
    (hgen : ∀ row ∈ c.rows, 1 ≤ row.generationLength) (hr : c.Reach s h) : CommitsOk c s h := by
  refine (hr.induct ht (P := fun s h => BoundsOk s ∧ CommitsOk c s h) (fun s₀ F => ⟨?_, ?_⟩)
    fun s h s' e I C hP hm => ⟨hP.1.move hgen C hm, hP.2.move I C hP.1 hm⟩).2
  · intro id r hact
    rw [F.noActive] at hact
    cases hact
  · refine ⟨fun a ha => ?_, ?_, fun r _ => rfl, fun id r hact => ?_, fun id r row hact => ?_⟩
    · rw [F.ahasd] at ha
      unfold Setup.ahasd at ha
      split at ha
      · cases ha
        exact F.vskm.2.symm
      · cases ha
    · exact F.vskm.2.trans (Finset.sum_eq_zero fun id _ => rfl).symm
    · rw [F.noActive] at hact
      cases hact
    · rw [F.noActive] at hact
      cases hact

/-- A verification leaves VSKM and the request, if it is still active, with the length of its
    event. -/
theorem Setup.Reach.verified (hgen : ∀ row ∈ c.rows, 1 ≤ row.generationLength) (hr : c.Reach s h)
    {act : Act} {s' : SpecDecodeScheduler} (hs : machine.step s act = some s') {e : LangStepEvent}
    (he : .finished e ∈ machine.obs s act s') (hty : e.taskType = .verify) :
    s'.vskm.versionOf e.requestId = some (e.currentLength, 0) ∧
      ∀ r : LangRequest, s'.activeRequests[e.requestId]? = some r →
        r.currentLength = e.currentLength := by
  obtain ⟨ht, mid, info, req, hinfo, hid, hact, rfl, rfl⟩ :=
    hr.finished hs he (by rw [hty]; simp)
  obtain ⟨I, C⟩ := hr.inv ht
  obtain ⟨heid, hety, _, _, _, _, hcurrent⟩ := s.completed_event mid req info
  rw [hety] at hty
  have htask := I.taskDone hinfo hid hact
  obtain ⟨_, hverify⟩ := htask.commits (hr.bounds ht hgen _ req hact)
    ((hr.commits ht hgen).versions _ req hact)
  rw [heid, hcurrent hty, completed_vskm]
  refine ⟨(hverify hty).2, fun r hr' => ?_⟩
  rw [s.completed_activeRequests mid req info hid hact, if_pos rfl] at hr'
  obtain ⟨after, hafter, rfl⟩ := Option.map_eq_some_iff.mp hr'
  unfold afterTask at hafter
  rw [hty] at hafter
  dsimp only at hafter
  split at hafter
  · cases hafter
  · cases hafter
    rfl

/-- A draft is issued only below the target. -/
theorem Setup.Reach.draft_below (hgen : ∀ row ∈ c.rows, 1 ≤ row.generationLength)
    (hr : c.Reach s h) {act : Act} {s' : SpecDecodeScheduler}
    (hs : machine.step s act = some s') {built : Model} {info : ModelMeta}
    (hi : .issued built info ∈ machine.obs s act s') (hty : info.taskType = .draft) :
    ∃ r : LangRequest, s'.activeRequests[info.requestId]? = some r ∧
      r.currentLength < r.targetLength := by
  have ht := (hr.exec (.one hs)).speculative (List.mem_append_right h hi) nofun
  obtain ⟨t, I, C, B, hm⟩ := hr.issued ht (P := fun s _ => BoundsOk s)
    (fun s h s' e _ C B hm => B.move hgen C hm) (hr.bounds ht hgen) hs hi
  cases hm with
  | issue s₁ req req' model seqLength info built g hact hrun hprep hgen' =>
      obtain ⟨v, hactive⟩ := (hprep.launched hgen').active
      have hb := B _ req hact
      have hphase := (I.requests _ _ hact).phase
      refine ⟨_, by rw [hactive, if_pos hprep.request.2], ?_⟩
      cases hprep with
      | draft hdrafting =>
          unfold LangRequest.Bounded at hb
          unfold LangRequest.PhaseFacts at hphase
          rw [hdrafting] at hb hphase
          dsimp only at hb hphase ⊢
          omega
      | prompt _ => cases hty
      | verify _ _ => cases hty
      | preVerify _ _ => cases hty

/-- **With a token to generate for every request**: in every reachable state VSKM and the
    coordinator have accepted the same number of tokens, and it is the number the requests committed
    since their prompts; a call that finishes a verification leaves VSKM and the request with the
    same length; and a draft is issued only for a request below its target. -/
theorem committed_tokens (hgen : ∀ row ∈ c.rows, 1 ≤ row.generationLength) (hr : c.Reach s h)
    {a : AHASDIntegration} (ha : s.ahasd = some a) :
    (s.vskm.stats.acceptedTokens = a.totalAcceptedTokens ∧
      a.totalAcceptedTokens = ∑ id ∈ Finset.range c.rows.length, committedFor id h) ∧
    (c.targetModel.isSome = true → ∀ (id : Nat) (r : LangRequest) (row : RequestRow),
      s.activeRequests[id]? = some r → c.rows[id]? = some row → r.specPhase ≠ .promptPending →
      r.currentLength = row.cachedLength + row.promptLength + committedFor id h ∧
      (s.vskm.requests[id]?).map (·.commitLength) = some r.currentLength) ∧
    ∀ act s', machine.step s act = some s' →
      (∀ e, .finished e ∈ machine.obs s act s' → e.taskType = .verify →
        (s'.vskm.requests[e.requestId]?).map (·.commitLength) = some e.currentLength ∧
        ∀ r : LangRequest, s'.activeRequests[e.requestId]? = some r →
          r.currentLength = e.currentLength) ∧
      ∀ built info, .issued built info ∈ machine.obs s act s' → info.taskType = .draft →
        ∃ r : LangRequest, s'.activeRequests[info.requestId]? = some r ∧
          r.currentLength < r.targetLength := by
  have hcommit : ∀ {v : VSKM} {id length drafted : Nat},
      v.versionOf id = some (length, drafted) →
      (v.requests[id]?).map (·.commitLength) = some length := by
    intro v id length drafted hversion
    have hfst := congrArg (Option.map Prod.fst) hversion
    rw [VSKM.versionOf, Option.map_map] at hfst
    exact hfst
  refine ⟨?_, fun ht id r row hact hrow hphase => ?_, fun act s' hs => ⟨fun e he hty => ?_,
    fun built info hi hty => hr.draft_below hgen hs hi hty⟩⟩
  · cases ht : c.targetModel.isSome with
    | false =>
        have N := hr.fallback ht
        have hzero : a.totalAcceptedTokens = 0 :=
          congrArg AHASDIntegration.TokenCounters.accepted (N.tokens_zero ha)
        exact ⟨N.accepted.trans hzero.symm,
          hzero.trans (Finset.sum_eq_zero fun id _ => N.committedFor id).symm⟩
    | true =>
        have K := hr.commits ht hgen
        exact ⟨(K.coordinator a ha).symm, (K.coordinator a ha).trans K.total⟩
  · have K := hr.commits ht hgen
    have hlength := K.lengths id r row hact hrow
    unfold prefill at hlength
    rw [if_neg hphase] at hlength
    exact ⟨hlength, hcommit (K.versions id r hact hphase)⟩
  · obtain ⟨hversion, hlength⟩ := hr.verified hgen hs he hty
    exact ⟨hcommit hversion, hlength⟩

/-- A round of three drafts with two accepted: all count two tokens. -/
theorem committed_tokens_sample : ∃ s h,
    (sampleSetup [⟨0, 4, 6, 1⟩] [(⟨0, 1⟩, ⟨3, 0, 2⟩)]).Reach s h ∧ ∃ a, s.ahasd = some a ∧
      s.vskm.stats.acceptedTokens = 2 ∧ s.vskm.stats.acceptedTokens = a.totalAcceptedTokens ∧
      a.totalAcceptedTokens = ∑ id ∈ Finset.range 1, committedFor id h := by
  obtain ⟨s, h, hr, hfacts⟩ := Setup.exists_reach
    (c := sampleSetup [⟨0, 4, 6, 1⟩] [(⟨0, 1⟩, ⟨3, 0, 2⟩)]) (l := finishing [2, 3, 4, 5, 6])
    (p := fun r => r.1.ahasd.isSome && decide (r.1.vskm.stats.acceptedTokens = 2))
    (by decide +kernel)
  rw [Bool.and_eq_true] at hfacts
  obtain ⟨a, ha⟩ := Option.isSome_iff_exists.mp hfacts.1
  obtain ⟨⟨hvskm, htotal⟩, _⟩ := committed_tokens (by decide) hr ha
  exact ⟨s, h, hr, a, ha, of_decide_eq_true hfacts.2, hvskm, htotal⟩

/-- A request with nothing to generate drafts at its target, and when the draft is accepted VSKM
    commits a token the request does not. -/
theorem prompt_at_target_drafts :
    (¬ ∀ s h s' built info (r : LangRequest),
      (sampleSetup [⟨0, 4, 0, 1⟩] [(⟨0, 1⟩, ⟨1, 0, 1⟩)]).Reach s h →
      machine.step s .cycle = some s' → .issued built info ∈ machine.obs s .cycle s' →
      info.taskType = .draft → s'.activeRequests[info.requestId]? = some r →
      r.currentLength < r.targetLength) ∧
    ¬ ∀ s h s' mid e,
      (sampleSetup [⟨0, 4, 0, 1⟩] [(⟨0, 1⟩, ⟨1, 0, 1⟩)]).Reach s h →
      machine.step s (.finishModel mid) = some s' →
      .finished e ∈ machine.obs s (.finishModel mid) s' → e.taskType = .verify →
      (s'.vskm.requests[e.requestId]?).map (·.commitLength) = some e.currentLength := by
  constructor
  · intro hclaim
    obtain ⟨s, h, s', hr, hs, hfacts⟩ := Setup.exists_step
      (c := sampleSetup [⟨0, 4, 0, 1⟩] [(⟨0, 1⟩, ⟨1, 0, 1⟩)]) (l := finishing [2]) (a := .cycle)
      (p := fun s _ s' => (machine.obs s .cycle s').any <| Event.issuedWith fun _ info =>
        decide (info.requestId = 0 ∧ info.taskType = .draft) &&
          (s'.activeRequests[0]?).any fun r => r.currentLength = 5 ∧ r.targetLength = 5)
      (by decide +kernel)
    obtain ⟨built, info, hx, hdraft⟩ := Event.exists_issued hfacts
    rw [Bool.and_eq_true] at hdraft
    obtain ⟨hid, hty⟩ := of_decide_eq_true hdraft.1
    obtain ⟨r, hact, hlengths⟩ := (Option.any_eq_true _ _).mp hdraft.2
    obtain ⟨hcurrent, htarget⟩ := of_decide_eq_true hlengths
    have hlt := hclaim s h s' built info r hr hs hx hty (by rw [hid]; exact hact)
    omega
  · intro hclaim
    obtain ⟨s, h, s', hr, hs, hfacts⟩ := Setup.exists_step
      (c := sampleSetup [⟨0, 4, 0, 1⟩] [(⟨0, 1⟩, ⟨1, 0, 1⟩)])
      (l := finishing [2, 3] ++ [.cycle]) (a := .finishModel 4)
      (p := fun s _ s' => (machine.obs s (.finishModel 4) s').any <| Event.finishedWith fun e =>
        decide (e.requestId = 0 ∧ e.taskType = .verify ∧ e.currentLength = 5 ∧
          (s'.vskm.requests[0]?).map VSKM.RequestState.commitLength = some 6)) (by decide +kernel)
    obtain ⟨e, hx, hverify⟩ := Event.exists_finished hfacts
    obtain ⟨hid, hty, hcurrent, hcommit⟩ := of_decide_eq_true hverify
    have hequal := hclaim s h s' 4 e hr hs hx hty
    rw [hid, hcommit, hcurrent] at hequal
    cases hequal

end

end Ahasd
