/-
  File:      Ahasd/Scheduler/Rollbacks.lean
  Subject:   WHAT THE SCHEDULER'S VERIFICATIONS REJECT, in VSKM's counters.

  * `rejectedTokens`, `draftsOfVerifiedRounds`: what a history says about it;
  * `VersionsInRound`: inside a round VSKM has the length and the drafts of the request;
  * `RollbacksOk`: VSKM's written, rejected and accepted tokens are those of the history, and what
    the verifications checked are the drafts of their rounds; **`rejected_within_written`**;
  * `rollbackContext`: the context a rollback is charged at; **`rollback_context_iff`**: it is the
    active one exactly when the verification accepts nothing.
-/
import Ahasd.VSKMModes
import Ahasd.Scheduler.Ledger

namespace Ahasd

open Std Transition OrderedMap

/-! ## 1. What a history says -/

/-- The tokens the verifications rejected. -/
def rejectedTokens (l : List LangStepEvent) : Nat :=
  (l.map fun e => max 1 e.draftLength - e.acceptedLength).sum

/-- The round has a finished verification. -/
def verifiedRound (id n : Nat) (h : List Event) : Bool :=
  (finishedOf .verify h).any fun e => e.requestId = id ∧ e.specRound = n

/-- The drafts of a round. -/
def draftsOfRound (id n : Nat) (h : List Event) : Nat :=
  (finishedOf .draft h).countP fun d => d.requestId = id ∧ d.specRound = n

/-- The drafts of the rounds that have a finished verification. -/
def draftsOfVerifiedRounds (h : List Event) : Nat :=
  (finishedOf .draft h).countP fun d => verifiedRound d.requestId d.specRound h

section History

variable (h : List Event)

@[simp] theorem rejectedTokens_append (l l' : List LangStepEvent) :
    rejectedTokens (l ++ l') = rejectedTokens l + rejectedTokens l' := by
  simp [rejectedTokens]

/-- Two conditions that never hold together are counted apart. -/
theorem countP_or_apart {α : Type} {p q : α → Bool} {l : List α}
    (hapart : ∀ x ∈ l, q x = true → p x = false) :
    l.countP (fun x => p x || q x) = l.countP p + l.countP q := by
  induction l with
  | nil => rfl
  | cons x l ih =>
      have hrest := ih fun y hy => hapart y (List.mem_cons_of_mem x hy)
      have hhead := hapart x List.mem_cons_self
      simp only [List.countP_cons, hrest]
      cases hq : q x with
      | false =>
          cases p x with
          | false => simp
          | true =>
              simp
              omega
      | true =>
          rw [hhead hq]
          simp
          omega

/-- The drafts of a round are the drafts among its tasks. -/
theorem draftsOfRound_eq (id n : Nat) :
    draftsOfRound id n h = ((roundEvents id n h).map (·.taskType)).count .draft := by
  unfold draftsOfRound roundEvents completions finishedOf
  induction h with
  | nil => rfl
  | cons x h ih =>
      cases x with
      | issued built info => exact ih
      | planned requestId round hint preds => exact ih
      | finished e =>
          by_cases hid : e.requestId = id <;> by_cases hn : e.specRound = n <;>
            by_cases hty : e.taskType = .draft <;>
            simp_all [Event.finishedTask]

/-- A verified round has a verification among its tasks. -/
theorem mem_of_verifiedRound {id n : Nat} (hverified : verifiedRound id n h = true) :
    LangTaskType.verify ∈ (roundEvents id n h).map (·.taskType) := by
  obtain ⟨e, he, hround⟩ := List.any_eq_true.mp hverified
  obtain ⟨hid, hn⟩ := of_decide_eq_true hround
  obtain ⟨x, hx, hfinished⟩ := List.mem_filterMap.mp he
  cases x with
  | issued built info => cases hfinished
  | planned requestId round hint preds => cases hfinished
  | finished e' =>
      unfold Event.finishedTask at hfinished
      dsimp only at hfinished
      split at hfinished
      · next hty =>
          cases hfinished
          refine List.mem_map.mpr ⟨e, List.mem_filter.mpr ⟨List.mem_filterMap.mpr
            ⟨.finished e, hx, if_pos hid⟩, decide_eq_true hn⟩, hty⟩
      · cases hfinished

theorem verifiedRound_append (id n : Nat) (h' : List Event) :
    verifiedRound id n (h ++ h') = (verifiedRound id n h || verifiedRound id n h') := by
  unfold verifiedRound
  rw [finishedOf_append, List.any_append]

/-- What finishes neither a draft nor a verification leaves the drafts of the verified rounds. -/
theorem draftsOfVerifiedRounds_same {h' : List Event} (hdraft : finishedOf .draft h' = [])
    (hverify : finishedOf .verify h' = []) :
    draftsOfVerifiedRounds (h ++ h') = draftsOfVerifiedRounds h := by
  have hnone : ∀ id n, verifiedRound id n h' = false := fun id n => by
    unfold verifiedRound
    rw [hverify]
    rfl
  unfold draftsOfVerifiedRounds
  simp only [finishedOf_append, hdraft, List.append_nil, verifiedRound_append, hnone, Bool.or_false]

/-- So does a draft of a round that is not verified yet. -/
theorem draftsOfVerifiedRounds_draft {e : LangStepEvent} (hty : e.taskType = .draft)
    (hopen : verifiedRound e.requestId e.specRound h = false) :
    draftsOfVerifiedRounds (h ++ [.finished e]) = draftsOfVerifiedRounds h := by
  have hdrafts : finishedOf .draft [.finished e] = [e] := by rw [finishedOf_finished, if_pos hty]
  have hverify : finishedOf .verify [.finished e] = [] := by
    rw [finishedOf_finished, if_neg (by rw [hty]; simp)]
  have hnone : ∀ id n, verifiedRound id n [.finished e] = false := fun id n => by
    unfold verifiedRound
    rw [hverify]
    rfl
  unfold draftsOfVerifiedRounds
  simp only [finishedOf_append, hdrafts, List.countP_append, verifiedRound_append, hnone,
    Bool.or_false, List.countP_singleton, hopen]
  rfl

/-- **A verification adds the drafts of its round**, when the round has no other. -/
theorem draftsOfVerifiedRounds_verify {e : LangStepEvent} (hty : e.taskType = .verify)
    (hopen : verifiedRound e.requestId e.specRound h = false) :
    draftsOfVerifiedRounds (h ++ [.finished e]) =
      draftsOfVerifiedRounds h + draftsOfRound e.requestId e.specRound h := by
  have hdrafts : finishedOf .draft [.finished e] = [] := by
    rw [finishedOf_finished, if_neg (by rw [hty]; simp)]
  have hverify : ∀ id n, verifiedRound id n [.finished e] =
      decide (id = e.requestId ∧ n = e.specRound) := fun id n => by
    unfold verifiedRound
    rw [finishedOf_finished, if_pos hty, List.any_cons, List.any_nil, Bool.or_false]
    exact decide_eq_decide.mpr (and_congr eq_comm eq_comm)
  unfold draftsOfVerifiedRounds draftsOfRound
  simp only [finishedOf_append, hdrafts, List.append_nil, verifiedRound_append, hverify]
  refine countP_or_apart fun d _ hround => ?_
  obtain ⟨hid, hn⟩ := of_decide_eq_true hround
  rw [hid, hn]
  exact hopen

end History

namespace SpecDecodeScheduler

/-! ## 2. The versions inside a round -/

/-- Inside a round VSKM has the length and the drafts of the request. -/
def VersionsInRound (s : SpecDecodeScheduler) : Prop :=
  ∀ (id : Nat) (r : LangRequest), s.activeRequests[id]? = some r → r.InRound →
    s.vskm.versionOf id = some (r.currentLength, r.draftedInRound)

/-- A task that leaves its request inside the round leaves VSKM with its version. -/
theorem TaskDone.versionInRound {s : SpecDecodeScheduler} {req r : LangRequest} {info : ModelMeta}
    (htask : TaskDone s req info (some r)) (hin : r.InRound)
    (hversion : req.InRound →
      s.vskm.versionOf req.requestId = some (req.currentLength, req.draftedInRound)) :
    (s.taskVskm req info).versionOf req.requestId = some (r.currentLength, r.draftedInRound) := by
  unfold taskVskm
  cases htask with
  | prompt hty hphase hround => exact absurd hin (LangRequest.not_inRound (.inr rfl))
  | draft hty hphase hround hpos hlength hlt =>
      rw [hty]
      exact s.vskm.draftToken_versionOf _ (hversion (.inl hphase))
  | verify hty hphase hround hpos hlength hdrafted hplanned hnext =>
      exact absurd hin (LangRequest.not_inRound (.inr hnext))
  | preVerify hty hphase hround hpos hdrafted hlength hdone =>
      rw [hty]
      exact (s.vskm.preVerify_versionOf _ _).trans (hversion (.inr hphase))

/-- **Every move keeps the versions.** -/
theorem VersionsInRound.move {s s' : SpecDecodeScheduler} {e : List Event}
    (V : VersionsInRound s) (hm : Move s s' e) : VersionsInRound s' := by
  intro id r hact hin
  cases hm with
  | minor s' hm =>
      rw [hm.vskm]
      exact V id r (hm.active ▸ hact) hin
  | admitOne q rest hq =>
      rw [s.admit_lookup q rest] at hact
      split at hact
      · cases hact
        exact absurd hin (LangRequest.not_inRound (.inl rfl))
      · exact V id r hact hin
  | plan req hreq hrun hphase =>
      obtain ⟨ssrc, deferred, heq⟩ := s.planRound_eq req
      have hvskm : (s.planRound req).2.vskm = s.vskm.beginRound req.requestId (req.specRound + 1)
          req.currentLength (s.pickDraftLength req).1 := by rw [heq]
      rw [s.planRound_lookup req] at hact
      rw [hvskm, VSKM.beginRound_versionOf]
      split at hact
      · next hid =>
          cases hact
          exact if_pos hid
      · next hne => exact (if_neg hne).trans (V id r hact hin)
  | issue s₁ req req' model seqLength info built g hreq hrun hprep hgen =>
      have L := hprep.launched hgen
      obtain ⟨v, hactive⟩ := L.active
      rw [L.vskm]
      rw [hactive] at hact
      split at hact
      · next hid =>
          cases hact
          rw [hid]
          exact V _ req hreq hin
      · exact V id r hact hin
  | finish modelId info req hinfo hid hreq htask =>
      rw [completed_vskm]
      rw [s.completed_activeRequests modelId req info hid hreq] at hact
      split at hact
      · next heq =>
          obtain ⟨q, hq, rfl⟩ := Option.map_eq_some_iff.mp hact
          rw [heq]
          exact (hq ▸ htask).versionInRound hin (V _ req hreq)
      · next hne => exact (s.taskVskm_versionOf_other req info hne).trans (V id r hact hin)

/-! ## 3. The counters of VSKM -/

/-- What a verification charges: the request has drafted what it verifies. -/
theorem verify_charges {s : SpecDecodeScheduler} {req : LangRequest} {info : ModelMeta}
    (hty : info.taskType = .verify) (hphase : req.specPhase = .awaitVerify)
    (hlength : info.draftLengthAtIssue = req.plannedDraftLength)
    (hdrafted : req.draftedInRound = req.plannedDraftLength) (hplanned : 1 ≤ req.plannedDraftLength)
    (hversion : req.InRound →
      s.vskm.versionOf req.requestId = some (req.currentLength, req.draftedInRound)) :
    s.taskVskm req info =
        (s.vskm.completeVerify req.requestId req.plannedDraftLength (s.acceptedBy req info)).2 ∧
      s.vskm.versionOf req.requestId = some (req.currentLength, req.plannedDraftLength) ∧
      s.acceptedBy req info ≤ req.plannedDraftLength := by
  have hle := s.acceptedBy_le req info
  have hmax : max 1 info.draftLengthAtIssue = req.plannedDraftLength := by omega
  rw [hmax] at hle
  refine ⟨?_, by rw [hversion (.inr hphase), hdrafted], hle⟩
  unfold taskVskm
  rw [hty]
  dsimp only
  rw [hmax]

/-- **VSKM's counters are those of the history.** -/
structure RollbacksOk (s : SpecDecodeScheduler) (h : List Event) : Prop where
  written : s.vskm.stats.totalKvWriteBytes =
    s.vskm.prices.write * (finishedOf .draft h).length
  rejected : s.vskm.stats.rejectedKvWriteBytes =
    s.vskm.prices.reject * rejectedTokens (finishedOf .verify h)
  accepted : s.vskm.stats.acceptedTokens = acceptedTokens (finishedOf .verify h)
  split : acceptedTokens (finishedOf .verify h) + rejectedTokens (finishedOf .verify h) =
    draftsOfVerifiedRounds h

/-- A move that finishes nothing and leaves the counters alone. -/
theorem RollbacksOk.same {s s' : SpecDecodeScheduler} {h h' : List Event} (R : RollbacksOk s h)
    (hprices : s'.vskm.prices = s.vskm.prices)
    (hwritten : s'.vskm.stats.totalKvWriteBytes = s.vskm.stats.totalKvWriteBytes)
    (hrejected : s'.vskm.stats.rejectedKvWriteBytes = s.vskm.stats.rejectedKvWriteBytes)
    (haccepted : s'.vskm.stats.acceptedTokens = s.vskm.stats.acceptedTokens)
    (hdraft : finishedOf .draft h' = []) (hverify : finishedOf .verify h' = []) :
    RollbacksOk s' (h ++ h') := by
  refine ⟨?_, ?_, ?_, ?_⟩
  · rw [hwritten, hprices, finishedOf_append, hdraft, List.append_nil]
    exact R.written
  · rw [hrejected, hprices, finishedOf_append, hverify, List.append_nil]
    exact R.rejected
  · rw [haccepted, finishedOf_append, hverify, List.append_nil]
    exact R.accepted
  · rw [finishedOf_append, hverify, List.append_nil, draftsOfVerifiedRounds_same h hdraft hverify]
    exact R.split

/-- A round that is being drafted or verified has no verification yet. -/
theorem RoundsOk.unverified {s : SpecDecodeScheduler} {h : List Event} (Q : RoundsOk s h)
    {req : LangRequest} (hact : s.activeRequests[req.requestId]? = some req) (hin : req.InRound) :
    verifiedRound req.requestId req.specRound h = false := by
  refine Bool.eq_false_iff.mpr fun hverified => ?_
  have hmem := mem_of_verifiedRound h hverified
  rcases hin with hphase | hphase
  · rw [Q.drafting _ req hact hphase] at hmem
    simp at hmem
  · rcases Q.awaiting _ req hact hphase with hkinds | ⟨hkinds, _⟩ <;> rw [hkinds] at hmem <;>
      simp at hmem

/-- A round that is being verified has its drafts. -/
theorem RoundsOk.draftsOfRound {s : SpecDecodeScheduler} {h : List Event} (Q : RoundsOk s h)
    {req : LangRequest} (hact : s.activeRequests[req.requestId]? = some req)
    (hphase : req.specPhase = .awaitVerify) :
    draftsOfRound req.requestId req.specRound h = req.plannedDraftLength := by
  rw [draftsOfRound_eq]
  rcases Q.awaiting _ req hact hphase with hkinds | ⟨hkinds, _⟩ <;> rw [hkinds] <;> simp

theorem RollbacksOk.verified {s : SpecDecodeScheduler} {h : List Event} (R : RollbacksOk s h)
    (Q : RoundsOk s h) (V : VersionsInRound s) {modelId : Nat} {info : ModelMeta}
    {req : LangRequest} (hact : s.activeRequests[req.requestId]? = some req)
    (hty : info.taskType = .verify) (hphase : req.specPhase = .awaitVerify)
    (hround : info.verifyRound = req.specRound)
    (hlength : info.draftLengthAtIssue = req.plannedDraftLength)
    (hdrafted : req.draftedInRound = req.plannedDraftLength)
    (hplanned : 1 ≤ req.plannedDraftLength) :
    RollbacksOk (s.completed modelId req info).2
      (h ++ [.finished (s.completed modelId req info).1]) := by
  obtain ⟨heid, hety, heround, helength, _, heaccepted, _⟩ := s.completed_event modelId req info
  have hvskm := s.completed_vskm modelId req info
  obtain ⟨hcall, hversion, hle⟩ := verify_charges hty hphase hlength hdrafted hplanned (V _ req hact)
  obtain ⟨-, -, -, hwritten, hrejected, -, -⟩ :=
    VSKM.completeVerify_charges hversion req.plannedDraftLength (s.acceptedBy req info)
  have haccepted := (s.vskm.completeVerify_versionOf _ hversion req.plannedDraftLength
    (s.acceptedBy req info)).2
  have hprices := s.vskm.apply_prices
    (.completeVerify req.requestId req.plannedDraftLength (s.acceptedBy req info))
  have hsum : ((TokenLedger.rollback req.currentLength req.plannedDraftLength
      req.plannedDraftLength (s.acceptedBy req info)).map Prod.fst).sum =
      req.plannedDraftLength - s.acceptedBy req info := by
    unfold TokenLedger.rollback
    rw [Nat.max_self]
    dsimp only
    split
    · rfl
    · simp
      omega
  rw [← hcall, hsum] at hrejected
  rw [← hcall] at hwritten
  rw [← hcall, Nat.max_self, Nat.min_eq_left hle] at haccepted
  change (VSKM.completeVerify ..).2.prices = _ at hprices
  rw [← hcall] at hprices
  have hkept := heaccepted (.inl hty)
  have hopen := Q.unverified hact (.inr hphase)
  have hdrafts := Q.draftsOfRound hact hphase
  generalize (s.completed modelId req info).1 = e at heid hety heround helength hkept ⊢
  have hverify : finishedOf .verify [.finished e] = [e] := by
    rw [finishedOf_finished, if_pos (hety.trans hty)]
  have hdraft : finishedOf .draft [.finished e] = [] := by
    rw [finishedOf_finished, if_neg (by rw [hety, hty]; simp)]
  have hone : rejectedTokens [e] = req.plannedDraftLength - s.acceptedBy req info := by
    show max 1 e.draftLength - e.acceptedLength + 0 = _
    rw [helength, hlength, hkept]
    omega
  have hkeptOne : acceptedTokens [e] = s.acceptedBy req info := hkept
  refine ⟨?_, ?_, ?_, ?_⟩
  · rw [hvskm, hwritten, hprices, finishedOf_append, hdraft, List.append_nil]
    exact R.written
  · rw [hvskm, hrejected, hprices, finishedOf_append, hverify, rejectedTokens_append, hone,
      R.rejected, Nat.mul_add]
  · rw [hvskm, haccepted, finishedOf_append, hverify, acceptedTokens_append, hkeptOne, R.accepted]
  · have hsplit := R.split
    rw [finishedOf_append, hverify, acceptedTokens_append, rejectedTokens_append, hone, hkeptOne,
      draftsOfVerifiedRounds_verify h (hety.trans hty)
        (by rw [heid, heround, hround]; exact hopen), heid, heround, hround, hdrafts]
    omega

/-- A draft is written, and counts for no verified round. -/
theorem RollbacksOk.drafted {s : SpecDecodeScheduler} {h : List Event} (R : RollbacksOk s h)
    (Q : RoundsOk s h) {modelId : Nat} {info : ModelMeta} {req : LangRequest}
    (hact : s.activeRequests[req.requestId]? = some req) (hty : info.taskType = .draft)
    (hphase : req.specPhase = .drafting) (hround : info.verifyRound = req.specRound) :
    RollbacksOk (s.completed modelId req info).2
      (h ++ [.finished (s.completed modelId req info).1]) := by
  obtain ⟨heid, hety, heround, _⟩ := s.completed_event modelId req info
  have hvskm := s.completed_vskm modelId req info
  have hopen := Q.unverified hact (.inl hphase)
  have hcall : s.taskVskm req info = s.vskm.draftToken req.requestId := by
    unfold taskVskm
    rw [hty]
  generalize (s.completed modelId req info).1 = e at heid hety heround ⊢
  have hverify : finishedOf .verify [.finished e] = [] := by
    rw [finishedOf_finished, if_neg (by rw [hety, hty]; simp)]
  have hdraft : finishedOf .draft [.finished e] = [e] := by
    rw [finishedOf_finished, if_pos (hety.trans hty)]
  rw [hcall] at hvskm
  refine ⟨?_, ?_, ?_, ?_⟩
  · rw [hvskm, finishedOf_append, hdraft, List.length_append]
    show s.vskm.stats.totalKvWriteBytes + s.vskm.prices.write =
      s.vskm.prices.write * ((finishedOf .draft h).length + 1)
    rw [R.written, Nat.mul_add, Nat.mul_one]
  · rw [hvskm, finishedOf_append, hverify, List.append_nil]
    exact R.rejected
  · rw [hvskm, finishedOf_append, hverify, List.append_nil]
    exact R.accepted
  · rw [finishedOf_append, hverify, List.append_nil, draftsOfVerifiedRounds_draft h
      (hety.trans hty) (by rw [heid, heround, hround]; exact hopen)]
    exact R.split

theorem RollbacksOk.finish {s : SpecDecodeScheduler} {h : List Event} (R : RollbacksOk s h)
    (Q : RoundsOk s h) (V : VersionsInRound s) {modelId : Nat} {info : ModelMeta}
    {req : LangRequest} (hact : s.activeRequests[req.requestId]? = some req)
    (htask : TaskDone s req info (s.afterTask req info)) :
    RollbacksOk (s.completed modelId req info).2
      (h ++ [.finished (s.completed modelId req info).1]) := by
  have hety := (s.completed_event modelId req info).2.1
  have hvskm := s.completed_vskm modelId req info
  -- a task that is neither a draft nor a verification
  have hother : info.taskType ≠ .draft → info.taskType ≠ .verify →
      (s.taskVskm req info).prices = s.vskm.prices →
      (s.taskVskm req info).stats.totalKvWriteBytes = s.vskm.stats.totalKvWriteBytes →
      (s.taskVskm req info).stats.rejectedKvWriteBytes = s.vskm.stats.rejectedKvWriteBytes →
      (s.taskVskm req info).stats.acceptedTokens = s.vskm.stats.acceptedTokens →
      RollbacksOk (s.completed modelId req info).2
        (h ++ [.finished (s.completed modelId req info).1]) := by
    intro hdraft hverify hprices hwritten hrejected haccepted
    rw [← hvskm] at hprices hwritten hrejected haccepted
    refine R.same hprices hwritten hrejected haccepted ?_ ?_
    · rw [finishedOf_finished, hety, if_neg hdraft]
    · rw [finishedOf_finished, hety, if_neg hverify]
  generalize hafter : s.afterTask req info = after at htask
  cases htask with
  | prompt hty hphase hround =>
      refine hother (by simp [hty]) (by simp [hty]) ?_ ?_ ?_ ?_ <;>
        (unfold taskVskm; rw [hty]; rfl)
  | draft hty hphase hround hpos hlength hlt => exact R.drafted Q hact hty hphase hround
  | verify hty hphase hround hpos hlength hdrafted hplanned hnext =>
      exact R.verified Q V hact hty hphase hround hlength hdrafted hplanned
  | retire hty hphase hround hpos hlength hdrafted hplanned =>
      exact R.verified Q V hact hty hphase hround hlength hdrafted hplanned
  | preVerify hty hphase hround hpos hdrafted hlength hdone =>
      have hcall : s.taskVskm req info = s.vskm.preVerify req.requestId := by
        unfold taskVskm
        rw [hty]
      have hprices := s.vskm.apply_prices (.preVerify req.requestId)
      have hstats : (s.vskm.preVerify req.requestId).stats.totalKvWriteBytes =
            s.vskm.stats.totalKvWriteBytes ∧
          (s.vskm.preVerify req.requestId).stats.rejectedKvWriteBytes =
            s.vskm.stats.rejectedKvWriteBytes := by
        unfold VSKM.preVerify
        split <;> exact ⟨rfl, rfl⟩
      refine hother (by simp [hty]) (by simp [hty]) ?_ ?_ ?_ ?_ <;> rw [hcall]
      · exact hprices
      · exact hstats.1
      · exact hstats.2
      · exact s.vskm.preVerify_acceptedTokens _

/-- **Every move keeps the counters.** -/
theorem RollbacksOk.move {s s' : SpecDecodeScheduler} {h e : List Event} (R : RollbacksOk s h)
    (Q : RoundsOk s h) (V : VersionsInRound s) (hm : Move s s' e) : RollbacksOk s' (h ++ e) := by
  cases hm with
  | minor s' hm =>
      refine R.same ?_ ?_ ?_ ?_ rfl rfl <;> rw [hm.vskm]
  | admitOne q rest hq => exact R.same rfl rfl rfl rfl rfl rfl
  | plan req hreq hrun hphase =>
      obtain ⟨ssrc, deferred, heq⟩ := s.planRound_eq req
      have hvskm : (s.planRound req).2.vskm = s.vskm.beginRound req.requestId (req.specRound + 1)
          req.currentLength (s.pickDraftLength req).1 := by rw [heq]
      refine R.same ?_ ?_ ?_ ?_ rfl rfl <;> rw [hvskm] <;> rfl
  | issue s₁ req req' model seqLength info built g hreq hrun hprep hgen =>
      have L := hprep.launched hgen
      refine R.same ?_ ?_ ?_ ?_ rfl rfl <;> rw [L.vskm]
  | finish modelId info req hinfo hid hact htask => exact R.finish Q V hact htask

end SpecDecodeScheduler

/-! ## 4. Every run -/

section

open SpecDecodeScheduler

variable {c : Setup} {s : SpecDecodeScheduler} {h : List Event}

/-- The versions of every reachable state. -/
theorem Setup.Reach.versionsInRound (ht : c.targetModel.isSome = true) (hr : c.Reach s h) :
    VersionsInRound s := by
  refine hr.induct ht (P := fun s _ => VersionsInRound s) (fun s₀ F id r hact => ?_)
    fun s h s' e I _ V hm => V.move hm
  rw [F.noActive] at hact
  cases hact

/-- The counters of every reachable state. -/
theorem Setup.Reach.rollbacks (hr : c.Reach s h) : RollbacksOk s h := by
  obtain ⟨s₀, hstart, hexec⟩ := hr
  have F := Setup.start_fresh hstart
  have hfirst : RollbacksOk s₀ [] := by
    obtain ⟨base, _, rfl⟩ := Setup.start_eq hstart
    exact ⟨rfl, rfl, rfl, rfl⟩
  cases ht : c.targetModel.isSome with
  | true =>
      refine (exec_moves (P := fun s h => RoundsOk s h ∧ VersionsInRound s ∧ RollbacksOk s h)
        (fun s h s' e I C hP hm => ?_) (F.protocolOk ht) F.configured ⟨F.roundsOk, ?_, hfirst⟩
        hexec).2.2.2.2
      · exact ⟨hP.1.move I hm, hP.2.1.move hm, hP.2.2.move hP.1 hP.2.1 hm⟩
      · intro id r hact
        rw [F.noActive] at hact
        cases hact
  | false =>
      refine (hexec.invariant (P := fun t k => c.Reach t k ∧ RollbacksOk t k)
        ⟨⟨s₀, hstart, .start⟩, hfirst⟩ fun t k a t' hP hs => ?_).2
      have hr := hP.1.exec (.one hs)
      have hauto : ∀ ev, .finished ev ∈ machine.obs t a t' → ev.taskType = .autoreg := by
        intro ev hev
        obtain ⟨ev', heq, hty⟩ := (hr.fallback ht).autoreg _ (List.mem_append_right k hev)
        cases heq
        exact hty
      have hvskm := ((hP.1.fallback ht).untouched hs).1
      refine ⟨hr, hP.2.same ?_ ?_ ?_ ?_ (finishedOf_autoreg _ hauto (by simp))
        (finishedOf_autoreg _ hauto (by simp))⟩ <;> rw [hvskm]

/-- **VSKM never counts more rejected bytes than written ones, and the accepted and the rejected
    tokens are the drafts of the verified rounds.** -/
theorem rejected_within_written (hr : c.Reach s h) :
    s.vskm.stats.rejectedKvWriteBytes ≤ s.vskm.stats.totalKvWriteBytes ∧
      s.vskm.rejectedKvWriteRatio ≤ 1 ∧
      s.vskm.stats.totalKvWriteBytes =
        s.vskm.scaledBytes s.vskm.writeFactor * (finishedOf .draft h).length ∧
      s.vskm.stats.rejectedKvWriteBytes =
        s.vskm.scaledBytes s.vskm.rejectWriteFactor * rejectedTokens (finishedOf .verify h) ∧
      s.vskm.stats.acceptedTokens + rejectedTokens (finishedOf .verify h) =
        draftsOfVerifiedRounds h := by
  obtain ⟨hwritten, hrejected, haccepted, hsplit⟩ := hr.rollbacks
  have hdrafts : draftsOfVerifiedRounds h ≤ (finishedOf .draft h).length := List.countP_le_length
  have hle : s.vskm.stats.rejectedKvWriteBytes ≤ s.vskm.stats.totalKvWriteBytes := by
    rw [hwritten, hrejected]
    exact Nat.mul_le_mul_left s.vskm.prices.write (by omega)
  refine ⟨hle, ?_, hwritten, hrejected, by rw [haccepted]; exact hsplit⟩
  unfold VSKM.rejectedKvWriteRatio
  split
  · exact zero_le_one
  · exact div_le_one_of_le₀ (Nat.cast_le.mpr hle) (Nat.cast_nonneg _)

/-- Two rounds of three drafts, the second with one rejected. -/
theorem rejected_within_written_sample : ∃ s h,
    (sampleSetup [⟨0, 4, 16, 1⟩] [(⟨0, 1⟩, ⟨3, 0, 3⟩), (⟨0, 2⟩, ⟨3, 0, 2⟩)]).Reach s h ∧
      rejectedTokens (finishedOf .verify h) = 1 ∧ (finishedOf .draft h).length = 6 ∧
      s.vskm.stats.rejectedKvWriteBytes ≤ s.vskm.stats.totalKvWriteBytes ∧
      s.vskm.stats.acceptedTokens + rejectedTokens (finishedOf .verify h) =
        draftsOfVerifiedRounds h := by
  obtain ⟨s, h, hr, hfacts⟩ := Setup.exists_reach
    (c := sampleSetup [⟨0, 4, 16, 1⟩] [(⟨0, 1⟩, ⟨3, 0, 3⟩), (⟨0, 2⟩, ⟨3, 0, 2⟩)])
    (l := finishing [2, 3, 4, 5, 6, 7, 8, 9, 10])
    (p := fun r => decide (rejectedTokens (finishedOf .verify r.2) = 1 ∧
      (finishedOf .draft r.2).length = 6)) (by decide +kernel)
  obtain ⟨hrejected, hdrafts⟩ := of_decide_eq_true hfacts
  obtain ⟨hle, _, _, _, hsplit⟩ := rejected_within_written hr
  exact ⟨s, h, hr, hrejected, hdrafts, hle, hsplit⟩

end

/-! ## 5. The context of a rollback -/

/-- The context length `complete_verify` passes to the estimates of a rollback: the committed length
    has moved by then. -/
def VSKM.RequestState.rollbackContext (state : VSKM.RequestState)
    (draftLength acceptedLength : Nat) : Nat :=
  let drafted := max draftLength state.draftedTokens
  state.commitLength + min acceptedLength drafted + drafted

/-- **A verification that rejects is charged at this context.** -/
theorem VSKM.completeVerify_rollbackContext {v : VSKM} {requestId : Nat}
    {state : VSKM.RequestState} (hstate : v.requests[requestId]? = some state)
    {k accepted : Nat} (hreject : accepted < max k state.draftedTokens) :
    let after := (v.completeVerify requestId k accepted).2
    let rejected := max k state.draftedTokens - accepted
    after.stats.rollbackCycles = v.stats.rollbackCycles +
        v.estimateRollbackCycles rejected (state.rollbackContext k accepted) ∧
      after.stats.externalKvTrafficBytes = v.stats.externalKvTrafficBytes +
        v.scaledBytes v.externalTrafficFactor * rejected +
        v.estimateRollbackTrafficBytes rejected (state.rollbackContext k accepted) := by
  have hversion : v.versionOf requestId = some (state.commitLength, state.draftedTokens) := by
    unfold VSKM.versionOf
    rw [hstate]
    rfl
  obtain ⟨-, -, -, -, -, hmoved, hstalled⟩ := VSKM.completeVerify_charges hversion k accepted
  unfold TokenLedger.rollback at hmoved hstalled
  dsimp only at hmoved hstalled
  rw [if_pos hreject] at hmoved hstalled
  exact ⟨hstalled, hmoved⟩

section

open SpecDecodeScheduler

variable {c : Setup} {s : SpecDecodeScheduler} {h : List Event}

/-- **The scheduler's rollbacks are charged at the active context exactly when nothing was
    accepted**: the accepted drafts count twice, as committed tokens and as drafts. -/
theorem rollback_context_iff (hr : c.Reach s h) {act : Act} {s' : SpecDecodeScheduler}
    (hs : machine.step s act = some s') {e : LangStepEvent}
    (he : .finished e ∈ machine.obs s act s') (hty : e.taskType = .verify)
    (hreject : e.acceptedLength < e.draftLength) :
    ∃ state : VSKM.RequestState, s.vskm.requests[e.requestId]? = some state ∧
      state.commitLength = e.previousLength ∧ state.draftedTokens = e.draftLength ∧
      s'.vskm.stats.rollbackCycles = s.vskm.stats.rollbackCycles +
        s.vskm.estimateRollbackCycles (e.draftLength - e.acceptedLength)
          (state.rollbackContext e.draftLength e.acceptedLength) ∧
      s'.vskm.stats.externalKvTrafficBytes = s.vskm.stats.externalKvTrafficBytes +
        s.vskm.scaledBytes s.vskm.externalTrafficFactor * (e.draftLength - e.acceptedLength) +
        s.vskm.estimateRollbackTrafficBytes (e.draftLength - e.acceptedLength)
          (state.rollbackContext e.draftLength e.acceptedLength) ∧
      (state.rollbackContext e.draftLength e.acceptedLength =
        state.commitLength + state.draftedTokens ↔ e.acceptedLength = 0) := by
  obtain ⟨ht, mid, info, req, hinfo, hid, hact, rfl, rfl⟩ :=
    hr.finished hs he (by rw [hty]; simp)
  obtain ⟨I, C⟩ := hr.inv ht
  obtain ⟨heid, hety, _, helength, heprevious, hekept, _⟩ := s.completed_event mid req info
  rw [hety] at hty
  have htask := I.taskDone hinfo hid hact
  have hfacts : req.specPhase = .awaitVerify ∧
      info.draftLengthAtIssue = req.plannedDraftLength ∧
      req.draftedInRound = req.plannedDraftLength ∧ 1 ≤ req.plannedDraftLength := by
    generalize s.afterTask req info = after at htask
    cases htask with
    | prompt hother => exact absurd (hother.symm.trans hty) (by simp)
    | draft hother => exact absurd (hother.symm.trans hty) (by simp)
    | verify _ hphase _ _ hlength hdrafted hplanned => exact ⟨hphase, hlength, hdrafted, hplanned⟩
    | retire _ hphase _ _ hlength hdrafted hplanned => exact ⟨hphase, hlength, hdrafted, hplanned⟩
    | preVerify hother => exact absurd (hother.symm.trans hty) (by simp)
  obtain ⟨hphase, hlength, hdrafted, hplanned⟩ := hfacts
  obtain ⟨hcall, hversion, hle⟩ := verify_charges hty hphase hlength hdrafted hplanned
    (hr.versionsInRound ht _ req hact)
  obtain ⟨state, hstate, hlengths⟩ := Option.map_eq_some_iff.mp hversion
  obtain ⟨hcommit, hopen⟩ := Prod.mk.inj hlengths
  rw [hid] at *
  have hkept := hekept (.inl hty)
  rw [helength, hlength, hkept] at hreject
  have hmax : max req.plannedDraftLength state.draftedTokens = req.plannedDraftLength := by
    omega
  have hcharges := VSKM.completeVerify_rollbackContext hstate (hmax.symm ▸ hreject)
  rw [hmax] at hcharges
  rw [heid, helength, hlength, hkept, heprevious, completed_vskm, hcall]
  refine ⟨state, hstate, hcommit, hopen, hcharges.1, hcharges.2, ?_⟩
  unfold VSKM.RequestState.rollbackContext
  dsimp only
  rw [hmax, Nat.min_eq_left hle]
  omega

/-- The first round of a request with a prompt of four tokens rejects all its drafts. -/
theorem rollback_context_iff_sample : ∃ s h s' e,
    (sampleSetup [⟨0, 4, 16, 1⟩] [(⟨0, 1⟩, ⟨3, 0, 0⟩)]).Reach s h ∧
    machine.step s (.finishModel 6) = some s' ∧
    .finished e ∈ machine.obs s (.finishModel 6) s' ∧ e.taskType = .verify ∧
    e.acceptedLength < e.draftLength ∧
    ∃ state : VSKM.RequestState, s.vskm.requests[e.requestId]? = some state ∧
      state.commitLength = e.previousLength ∧
      state.rollbackContext e.draftLength e.acceptedLength =
        state.commitLength + state.draftedTokens := by
  obtain ⟨s, h, s', hr, hs, hfacts⟩ := Setup.exists_step
    (c := sampleSetup [⟨0, 4, 16, 1⟩] [(⟨0, 1⟩, ⟨3, 0, 0⟩)])
    (l := finishing [2, 3, 4, 5] ++ [.cycle]) (a := .finishModel 6)
    (p := fun s _ s' => (machine.obs s (.finishModel 6) s').any <| Event.finishedWith fun e =>
      decide (e.taskType = .verify ∧ e.acceptedLength = 0 ∧ e.draftLength = 3))
    (by decide +kernel)
  obtain ⟨e, hx, hverify⟩ := Event.exists_finished hfacts
  obtain ⟨hty, hkept, hlength⟩ := of_decide_eq_true hverify
  have hreject : e.acceptedLength < e.draftLength := by omega
  obtain ⟨state, hstate, hcommit, _, _, _, hiff⟩ := rollback_context_iff hr hs hx hty hreject
  exact ⟨s, h, s', e, hr, hs, hx, hty, hreject, state, hstate, hcommit, hiff.mpr hkept⟩

/-- With two of three drafts accepted the charge is for ten tokens, where eight were active. -/
theorem accepted_drafts_charged_twice : ∃ s h s' e,
    (sampleSetup [⟨0, 4, 16, 1⟩] [(⟨0, 1⟩, ⟨3, 0, 2⟩)]).Reach s h ∧
    machine.step s (.finishModel 6) = some s' ∧
    .finished e ∈ machine.obs s (.finishModel 6) s' ∧ e.taskType = .verify ∧
    e.acceptedLength < e.draftLength ∧
    (s.vskm.requests[e.requestId]?).map (fun state => state.commitLength + state.draftedTokens) =
      some 8 ∧
    s'.vskm.stats.rollbackCycles = s.vskm.stats.rollbackCycles + s.vskm.estimateRollbackCycles 1 10 ∧
    s.vskm.estimateRollbackCycles 1 10 ≠ s.vskm.estimateRollbackCycles 1 8 ∧
    s.vskm.estimateRollbackTrafficBytes 1 10 ≠ s.vskm.estimateRollbackTrafficBytes 1 8 := by
  obtain ⟨s, h, s', hr, hs, hfacts⟩ := Setup.exists_step
    (c := sampleSetup [⟨0, 4, 16, 1⟩] [(⟨0, 1⟩, ⟨3, 0, 2⟩)])
    (l := finishing [2, 3, 4, 5] ++ [.cycle]) (a := .finishModel 6)
    (p := fun s _ s' => (machine.obs s (.finishModel 6) s').any <| Event.finishedWith fun e =>
      decide (e.taskType = .verify ∧ e.acceptedLength < e.draftLength ∧
        (s.vskm.requests[e.requestId]?).map
          (fun state => state.commitLength + state.draftedTokens) = some 8 ∧
        s'.vskm.stats.rollbackCycles =
          s.vskm.stats.rollbackCycles + s.vskm.estimateRollbackCycles 1 10 ∧
        s.vskm.estimateRollbackCycles 1 10 ≠ s.vskm.estimateRollbackCycles 1 8 ∧
        s.vskm.estimateRollbackTrafficBytes 1 10 ≠ s.vskm.estimateRollbackTrafficBytes 1 8))
    (by decide +kernel)
  obtain ⟨e, hx, hverify⟩ := Event.exists_finished hfacts
  exact ⟨s, h, s', e, hr, hs, hx, of_decide_eq_true hverify⟩

end

end Ahasd
