/-
  File:      Ahasd/Scheduler/Rounds.lean
  Subject:   THE ROUNDS OF A RUN, as its history shows them.

  * `completions`, `roundEvents`, `unverifiedDrafts`, `outstanding`: what a history says about a
    request and about one of its rounds;
  * `RoundsOk`, `RoundsOk.move`: the history agrees with the requests. A finished round is its
    drafts, at most one pre-verification, and its verification;
  * `Setup.Reach.rounds`: this holds in every run; `one_outstanding_model`: what it says of the
    models that are outstanding and of the rounds.
-/
import Ahasd.Scheduler.Runs

namespace Ahasd

open Std Transition OrderedMap

/-! ## 1. Histories -/

/-- The finished tasks of a request, in order. -/
def completions (id : Nat) (h : List Event) : List LangStepEvent :=
  h.filterMap fun
    | .finished e => if e.requestId = id then some e else none
    | _ => none

/-- The finished tasks of a round. -/
def roundEvents (id n : Nat) (h : List Event) : List LangStepEvent :=
  (completions id h).filter fun e => e.specRound = n

/-- What a finished task makes of the number of unverified drafts. -/
def countDraft (drafts : Nat) (e : LangStepEvent) : Nat :=
  match e.taskType with
  | .draft => drafts + 1
  | .verify => 0
  | _ => drafts

/-- The drafts a request finished since its last verification. -/
def unverifiedDrafts (id : Nat) (h : List Event) : Nat :=
  (completions id h).foldl countDraft 0

/-- The models issued for a request. -/
def issuedFor (id : Nat) (h : List Event) : List ModelMeta :=
  h.filterMap fun
    | .issued _ info => if info.requestId = id then some info else none
    | _ => none

/-- The models issued for a request and not finished. -/
def outstanding (id : Nat) (h : List Event) : Nat :=
  (issuedFor id h).length - (completions id h).length

section History

variable (id n : Nat) (h : List Event)

/-- An event that finishes no task is no completion. -/
@[simp] theorem completions_issued (built : Model) (info : ModelMeta) :
    completions id (h ++ [.issued built info]) = completions id h :=
  List.filterMap_append.trans (List.append_nil _)

@[simp] theorem completions_planned (requestId round : Nat) (hint : ℚ)
    (preds : List (Nat × Bool)) :
    completions id (h ++ [.planned requestId round hint preds]) = completions id h :=
  List.filterMap_append.trans (List.append_nil _)

theorem completions_finished (e : LangStepEvent) : completions id (h ++ [.finished e]) =
    completions id h ++ if e.requestId = id then [e] else [] := by
  refine List.filterMap_append.trans (congrArg (_ ++ ·) ?_)
  by_cases heq : e.requestId = id <;> simp [heq]

@[simp] theorem roundEvents_issued (built : Model) (info : ModelMeta) :
    roundEvents id n (h ++ [.issued built info]) = roundEvents id n h := by
  unfold roundEvents
  rw [completions_issued]

@[simp] theorem roundEvents_planned (requestId round : Nat) (hint : ℚ)
    (preds : List (Nat × Bool)) :
    roundEvents id n (h ++ [.planned requestId round hint preds]) = roundEvents id n h := by
  unfold roundEvents
  rw [completions_planned]

theorem roundEvents_finished (e : LangStepEvent) : roundEvents id n (h ++ [.finished e]) =
    roundEvents id n h ++ if e.requestId = id ∧ e.specRound = n then [e] else [] := by
  unfold roundEvents
  rw [completions_finished]
  by_cases hid : e.requestId = id <;> by_cases hn : e.specRound = n <;> simp [hid, hn]

@[simp] theorem unverifiedDrafts_issued (built : Model) (info : ModelMeta) :
    unverifiedDrafts id (h ++ [.issued built info]) = unverifiedDrafts id h := by
  unfold unverifiedDrafts
  rw [completions_issued]

@[simp] theorem unverifiedDrafts_planned (requestId round : Nat) (hint : ℚ)
    (preds : List (Nat × Bool)) :
    unverifiedDrafts id (h ++ [.planned requestId round hint preds]) = unverifiedDrafts id h := by
  unfold unverifiedDrafts
  rw [completions_planned]

theorem unverifiedDrafts_finished (e : LangStepEvent) :
    unverifiedDrafts id (h ++ [.finished e]) =
      if e.requestId = id then countDraft (unverifiedDrafts id h) e
      else unverifiedDrafts id h := by
  unfold unverifiedDrafts
  rw [completions_finished]
  by_cases hid : e.requestId = id <;> simp [hid]

@[simp] theorem issuedFor_finished (e : LangStepEvent) :
    issuedFor id (h ++ [.finished e]) = issuedFor id h :=
  List.filterMap_append.trans (List.append_nil _)

@[simp] theorem issuedFor_planned (requestId round : Nat) (hint : ℚ)
    (preds : List (Nat × Bool)) :
    issuedFor id (h ++ [.planned requestId round hint preds]) = issuedFor id h :=
  List.filterMap_append.trans (List.append_nil _)

theorem issuedFor_issued (built : Model) (info : ModelMeta) :
    issuedFor id (h ++ [.issued built info]) =
      issuedFor id h ++ if info.requestId = id then [info] else [] := by
  refine List.filterMap_append.trans (congrArg (_ ++ ·) ?_)
  by_cases heq : info.requestId = id <;> simp [heq]

end History

/-- Planning finishes no task. -/
theorem unverifiedDrafts_plannedBy (id : Nat) (h : List Event) (s s' : SpecDecodeScheduler)
    (info : ModelMeta) :
    unverifiedDrafts id (h ++ SpecDecodeScheduler.plannedBy s s' info) = unverifiedDrafts id h := by
  unfold SpecDecodeScheduler.plannedBy
  split
  · exact unverifiedDrafts_planned _ _ _ _ _ _
  · rw [List.append_nil]

/-! ## 2. The history and the requests -/

/-- The tasks of a finished round with `k` drafts: the drafts, at most one pre-verification, and a
    verification of all drafts. -/
def RoundComplete (k : Nat) (events : List LangStepEvent) : Prop :=
  (∃ preVerify, (preVerify = [] ∨ preVerify = [LangTaskType.preVerify]) ∧
    events.map (·.taskType) = List.replicate k .draft ++ preVerify ++ [.verify]) ∧
  ∀ e ∈ events, e.taskType = .verify → e.draftLength = k

/-- The phase a request is in while a task of the kind is outstanding. -/
def LangTaskType.phase : LangTaskType → Option LangSpecPhase
  | prompt => some .promptPending
  | draft => some .drafting
  | verify => some .awaitVerify
  | preVerify => some .awaitVerify
  | autoreg => none

/-- The request is inside a round. -/
def LangRequest.InRound (r : LangRequest) : Prop :=
  r.specPhase = .drafting ∨ r.specPhase = .awaitVerify

/-- A verification of all drafts finishes a round that has its drafts, and at most one
    pre-verification. -/
theorem RoundComplete.verified {k : Nat} {events : List LangStepEvent} {e : LangStepEvent}
    (hkinds : events.map (·.taskType) = List.replicate k .draft ∨
      events.map (·.taskType) = List.replicate k .draft ++ [.preVerify])
    (hverify : e.taskType = .verify) (hlength : e.draftLength = k) :
    RoundComplete k (events ++ [e]) := by
  have hno : ∀ e' ∈ events, e'.taskType ≠ .verify := by
    intro e' he' hty
    have hmem : LangTaskType.verify ∈ events.map (·.taskType) := hty ▸ List.mem_map_of_mem he'
    rcases hkinds with hk | hk <;> rw [hk] at hmem <;> simp at hmem
  refine ⟨?_, fun e' he' hty => ?_⟩
  · rw [List.map_append, List.map_singleton, hverify]
    rcases hkinds with hk | hk
    · exact ⟨[], .inl rfl, by rw [hk, List.append_nil]⟩
    · exact ⟨[.preVerify], .inr rfl, by rw [hk]⟩
  · rcases List.mem_append.mp he' with he' | he'
    · exact absurd hty (hno e' he')
    · rw [List.mem_singleton.mp he', hlength]

/-- A request at the start of a round, or before its prompt, is in no round. -/
theorem LangRequest.not_inRound {r : LangRequest}
    (h : r.specPhase = .promptPending ∨ r.specPhase = .draftRoundStart) : ¬ r.InRound := by
  rintro (hin | hin) <;> rcases h with h | h <;> rw [h] at hin <;> cases hin

namespace SpecDecodeScheduler

/-- A draft keeps its request in the round. -/
theorem draftedRequest_inRound (s : SpecDecodeScheduler) (req : LangRequest) :
    (s.draftedRequest req).InRound := by
  unfold LangRequest.InRound draftedRequest LangRequest.resizeCache
  dsimp only
  split
  · exact .inr rfl
  · exact .inl rfl

/-- A task that leaves its request inside a round was done inside it, and is a draft or a
    pre-verification. -/
theorem TaskDone.stays {s : SpecDecodeScheduler} {req r : LangRequest} {info : ModelMeta}
    (htask : TaskDone s req info (some r)) (hin : r.InRound) :
    req.InRound ∧ info.taskType ≠ .verify ∧ (r = s.draftedRequest req ∨ r = req) := by
  cases htask with
  | prompt hty hphase hround => exact absurd hin (LangRequest.not_inRound (.inr rfl))
  | draft hty hphase hround hpos hlength hlt => exact ⟨.inl hphase, by simp [hty], .inl rfl⟩
  | verify hty hphase hround hpos hlength hdrafted hplanned hnext =>
      exact absurd hin (LangRequest.not_inRound (.inr hnext))
  | preVerify hty hphase hround hpos hdrafted hlength hdone =>
      exact ⟨.inr hphase, by simp [hty], .inr rfl⟩

/-- **The history agrees with the requests.** -/
structure RoundsOk (s : SpecDecodeScheduler) (h : List Event) : Prop where
  drafting : ∀ (id : Nat) (r : LangRequest), s.activeRequests[id]? = some r →
    r.specPhase = .drafting →
    (roundEvents id r.specRound h).map (·.taskType) = List.replicate r.draftedInRound .draft
  awaiting : ∀ (id : Nat) (r : LangRequest), s.activeRequests[id]? = some r →
    r.specPhase = .awaitVerify →
    (roundEvents id r.specRound h).map (·.taskType) = List.replicate r.plannedDraftLength .draft ∨
      (roundEvents id r.specRound h).map (·.taskType) =
          List.replicate r.plannedDraftLength .draft ++ [.preVerify] ∧
        s.preVerifiedInRound[id]? = some r.specRound ∧
        ∀ (mid : Nat) (info : ModelMeta), s.modelMeta[mid]? = some info → info.requestId = id →
          info.taskType ≠ .preVerify
  opening : ∀ id, ∀ e ∈ roundEvents id 0 h, e.taskType = .prompt
  unplanned : ∀ id n, 1 ≤ n → s.planOf id n = none → roundEvents id n h = []
  closed : ∀ (id n k : Nat) (hint : ℚ), 1 ≤ n → s.planOf id n = some (k, hint) →
    (∀ r : LangRequest, s.activeRequests[id]? = some r → r.specRound = n → ¬ r.InRound) →
    RoundComplete k (roundEvents id n h)
  counts : ∀ id : Nat, (issuedFor id h).length = (completions id h).length +
    ((s.activeRequests[id]?).map fun r => r.running.toNat).getD 0

/-- An update of the state and the history that changes nothing of this. -/
theorem RoundsOk.minor {s s' : SpecDecodeScheduler} {h : List Event} (Q : RoundsOk s h)
    (hm : Minor s s') : RoundsOk s' h := by
  have hplans : ∀ id n, s'.planOf id n = s.planOf id n := fun id n => by
    unfold planOf
    rw [hm.traces]
  refine ⟨?_, ?_, Q.opening, ?_, ?_, ?_⟩
  · rw [hm.active]
    exact Q.drafting
  · rw [hm.active, hm.preVerified, hm.modelMeta]
    exact Q.awaiting
  · intro id n hn hp
    exact Q.unplanned id n hn (hplans id n ▸ hp)
  · intro id n k hint hn hp hout
    rw [hm.active] at hout
    exact Q.closed id n k hint hn (hplans id n ▸ hp) hout
  · rw [hm.active]
    exact Q.counts

theorem RoundsOk.admitOne {s : SpecDecodeScheduler} {h : List Event} (I : ProtocolOk s)
    (Q : RoundsOk s h) {r : LangRequest} {rest : List LangRequest}
    (hq : s.requestQueue = r :: rest) :
    RoundsOk { s with toLangScheduler :=
      s.toLangScheduler.admitOne (prepareRequest true) r rest } h := by
  have hnone := I.admit_fresh hq
  have hactive := s.admit_lookup r rest
  refine ⟨?_, ?_, Q.opening, Q.unplanned, ?_, ?_⟩
  · intro id q hact hphase
    rw [hactive] at hact
    split at hact
    · cases hact
      cases hphase
    · exact Q.drafting id q hact hphase
  · intro id q hact hphase
    rw [hactive] at hact
    split at hact
    · cases hact
      cases hphase
    · exact Q.awaiting id q hact hphase
  · intro id n k hint hn hp hout
    refine Q.closed id n k hint hn hp fun q hact => hout q ?_
    rw [hactive, if_neg]
    · exact hact
    · intro heq
      rw [heq, hnone] at hact
      cases hact
  · intro id
    rw [Q.counts id, hactive]
    split
    · next heq =>
        rw [heq, hnone]
        rfl
    · rfl

theorem RoundsOk.plan {s : SpecDecodeScheduler} {h : List Event} (I : ProtocolOk s)
    (Q : RoundsOk s h) {req : LangRequest}
    (hact : s.activeRequests[req.requestId]? = some req)
    (hphase : req.specPhase = .draftRoundStart) {hint : ℚ} {preds : List (Nat × Bool)} :
    RoundsOk (s.planRound req).2
      (h ++ [.planned req.requestId (req.specRound + 1) hint preds]) := by
  have hactive := s.planRound_lookup req
  have hplans := s.planRound_planOf req
  have R := I.requests _ _ hact
  obtain ⟨_, _, hmeta, _, hpre, _⟩ := s.planRound_frame req
  refine ⟨?_, ?_, ?_, ?_, ?_, ?_⟩
  · intro id q hq hdraft
    rw [roundEvents_planned]
    rw [hactive] at hq
    split at hq
    · next hid =>
        cases hq
        -- the new round has no task yet
        have hempty := Q.unplanned id (req.specRound + 1) (Nat.succ_pos _)
          (hid ▸ R.unplanned _ (Nat.lt_succ_self _))
        show (roundEvents id (req.specRound + 1) h).map _ = List.replicate 0 _
        rw [hempty]
        rfl
    · exact Q.drafting id q hq hdraft
  · intro id q hq hawait
    rw [roundEvents_planned, hpre, hmeta]
    rw [hactive] at hq
    split at hq
    · cases hq
      cases hawait
    · exact Q.awaiting id q hq hawait
  · intro id e he
    rw [roundEvents_planned] at he
    exact Q.opening id e he
  · intro id n hn hp
    rw [roundEvents_planned]
    rw [hplans] at hp
    split at hp
    · cases hp
    · exact Q.unplanned id n hn hp
  · intro id n k hint' hn hp hout
    rw [roundEvents_planned]
    rw [hplans] at hp
    split at hp
    · next hnew =>
        have hopen := hout (s.plannedRequest req) (by rw [hactive, if_pos hnew.1]) hnew.2.symm
        exact absurd (.inl rfl) hopen
    · refine Q.closed id n k hint' hn hp fun q hq hround => ?_
      by_cases hid : id = req.requestId
      · rw [hid, hact, Option.some.injEq] at hq
        subst hq
        exact LangRequest.not_inRound (.inr hphase)
      · exact hout q (by rw [hactive, if_neg hid]; exact hq) hround
  · intro id
    rw [issuedFor_planned, completions_planned, Q.counts id, hactive]
    split
    · next hid =>
        rw [hid, hact]
        rfl
    · rfl

theorem RoundsOk.issue {s s₁ : SpecDecodeScheduler} {h : List Event} (I : ProtocolOk s)
    (Q : RoundsOk s h) {req req' : LangRequest} {model : LanguageModel} {seqLength : Nat}
    {info : ModelMeta} {built : Model} {g : Globals}
    (hact : s.activeRequests[req.requestId]? = some req) (hrun : req.running = false)
    (hprep : Prepared s req s₁ req' model seqLength info)
    (hgen : model.generateModel [modelInput req' info.taskType seqLength] s.globals =
      some (built, g)) :
    RoundsOk (s₁.launched req' info built g) (h ++ [.issued built info]) := by
  have L := hprep.launched hgen
  obtain ⟨v, hactive⟩ := L.active
  have hplans : ∀ id n, (s₁.launched req' info built g).planOf id n = s.planOf id n := by
    intro id n
    exact (rfl : _ = s₁.planOf id n).trans (I.prepared_planOf hact hprep id n)
  have hid : info.requestId = req.requestId := hprep.request.2
  have hmeta := L.modelMeta
  have hpre := L.preVerified
  refine ⟨?_, ?_, ?_, ?_, ?_, ?_⟩
  · intro id q hq hdraft
    rw [roundEvents_issued]
    rw [hactive] at hq
    split at hq
    · next heq =>
        cases hq
        exact Q.drafting id req (heq ▸ hact) hdraft
    · exact Q.drafting id q hq hdraft
  · intro id q hq hawait
    rw [roundEvents_issued]
    rw [hactive] at hq
    split at hq
    · next heq =>
        cases hq
        subst heq
        rcases Q.awaiting _ req hact hawait with hnone | ⟨hone, hdone, hother⟩
        · exact .inl hnone
        · -- a second pre-verification is not inserted
          have hnot : info.taskType ≠ .preVerify := by
            cases hprep with
            | preVerify _ hpv => exact absurd hdone hpv.notYet
            | _ => simp
          refine .inr ⟨hone, by rw [hpre, if_neg hnot]; exact hdone, ?_⟩
          intro mid i hi hreq
          rw [hmeta] at hi
          split at hi
          · cases hi
            exact hnot
          · exact hother mid i hi hreq
    · next hne =>
        rcases Q.awaiting id q hq hawait with hnone | ⟨hone, hdone, hother⟩
        · exact .inl hnone
        · refine .inr ⟨hone, ?_, ?_⟩
          · rw [hpre]
            split
            · rw [lookup_insert, if_neg hne]
              exact hdone
            · exact hdone
          · intro mid i hi hreq
            rw [hmeta] at hi
            split at hi
            · cases hi
              exact absurd (hreq.symm.trans hid) hne
            · exact hother mid i hi hreq
  · intro id e he
    rw [roundEvents_issued] at he
    exact Q.opening id e he
  · intro id n hn hp
    rw [roundEvents_issued]
    rw [hplans] at hp
    exact Q.unplanned id n hn hp
  · intro id n k hint hn hp hout
    rw [roundEvents_issued]
    rw [hplans] at hp
    refine Q.closed id n k hint hn hp fun q hq hround => ?_
    by_cases heq : id = req.requestId
    · rw [heq, hact, Option.some.injEq] at hq
      subst hq
      have hstill := (hactive id).trans (if_pos heq)
      have hopen := hout _ hstill hround
      exact hopen
    · exact hout q (by rw [hactive, if_neg heq]; exact hq) hround
  · intro id
    rw [issuedFor_issued, completions_issued, hactive]
    have hcount := Q.counts id
    by_cases heq : id = req.requestId
    · rw [heq, hact] at hcount
      rw [if_pos heq, if_pos (hid.trans heq.symm), heq, List.length_append, hcount]
      simp [hrun]
    · rw [if_neg heq, if_neg fun h => heq (h.symm.trans hid), List.append_nil]
      exact hcount

theorem RoundsOk.finish {s : SpecDecodeScheduler} {h : List Event} (I : ProtocolOk s)
    (Q : RoundsOk s h) {modelId : Nat} {info : ModelMeta} {req : LangRequest}
    (hinfo : s.modelMeta[modelId]? = some info) (hid : info.requestId = req.requestId)
    (hact : s.activeRequests[req.requestId]? = some req)
    (htask : TaskDone s req info (s.afterTask req info)) :
    RoundsOk (s.completed modelId req info).2
      (h ++ [.finished (s.completed modelId req info).1]) := by
  have R := I.requests _ _ hact
  have hrunning : req.running = true := by
    obtain ⟨_, r, hr, hrun, _⟩ := I.tasks _ _ hinfo
    rw [hid, hact, Option.some.injEq] at hr
    rw [hr]
    exact hrun
  have hactive := s.completed_activeRequests modelId req info hid hact
  have hplans := I.completed_plans hinfo hid hact
  obtain ⟨heid, hety, heround, helength, _⟩ := s.completed_event modelId req info
  have hmeta := s.completed_modelMeta modelId req info
  have hpre := s.completed_preVerifiedInRound modelId req info
  generalize (s.completed modelId req info).1 = e at *
  generalize (s.completed modelId req info).2 = s' at *
  generalize s.afterTask req info = after at *
  -- the other rounds have the events they had
  have hother : ∀ id n, ¬ (id = req.requestId ∧ n = info.verifyRound) →
      roundEvents id n (h ++ [.finished e]) = roundEvents id n h := by
    intro id n hne
    rw [roundEvents_finished, if_neg, List.append_nil]
    rw [heid, heround]
    exact fun hc => hne ⟨hc.1.symm, hc.2.symm⟩
  have hround : roundEvents req.requestId info.verifyRound (h ++ [.finished e]) =
      roundEvents req.requestId info.verifyRound h ++ [e] := by
    rw [roundEvents_finished, if_pos ⟨heid, heround⟩]
  have hpreOther : ∀ id : Nat, id ≠ req.requestId →
      s'.preVerifiedInRound[id]? = s.preVerifiedInRound[id]? := by
    intro id hne
    rw [hpre]
    split
    · rw [lookup_erase, if_neg hne]
    · rfl
  have hmetaOther : ∀ (mid : Nat) (i : ModelMeta), s'.modelMeta[mid]? = some i →
      mid ≠ modelId ∧ s.modelMeta[mid]? = some i := by
    intro mid i hi
    rw [hmeta, lookup_erase] at hi
    split at hi
    · cases hi
    · exact ⟨‹_›, hi⟩
  refine ⟨?_, ?_, ?_, ?_, ?_, ?_⟩
  · intro id q hq hdraft
    rw [hactive] at hq
    split at hq
    · next heq =>
        subst heq
        -- only a draft leaves its request drafting
        cases htask with
        | draft hty hphase hn hpos hlength hlt =>
            cases hq
            have hdrafts := Q.drafting _ req hact hphase
            show (roundEvents _ req.specRound _).map _ =
              List.replicate (req.draftedInRound + 1) _
            rw [← hn] at hdrafts ⊢
            rw [hround, List.map_append, hdrafts, List.replicate_succ', ← hty, ← hety]
            rfl
        | prompt hty hphase hn =>
            cases hq
            cases hdraft
        | verify hty hphase hn hpos hlength hdrafted hplanned hnext =>
            cases hq
            rw [hnext] at hdraft
            cases hdraft
        | retire hty hphase hn hpos hlength hdrafted hplanned => cases hq
        | preVerify hty hphase hn hpos hdrafted hlength hdone =>
            cases hq
            rw [hphase] at hdraft
            cases hdraft
    · next hne =>
        rw [hother _ _ fun hc => hne hc.1]
        exact Q.drafting id q hq hdraft
  · intro id q hq hawait
    rw [hactive] at hq
    split at hq
    · next heq =>
        subst heq
        cases htask with
        | draft hty hphase hn hpos hlength hlt =>
            cases hq
            -- the last draft of the round
            have hlast : req.draftedInRound + 1 = req.plannedDraftLength := by
              unfold draftedRequest LangRequest.resizeCache at hawait
              dsimp only at hawait
              split at hawait
              · omega
              · cases hawait
            have hdrafts := Q.drafting _ req hact hphase
            refine .inl ?_
            show (roundEvents _ req.specRound _).map _ = List.replicate req.plannedDraftLength _
            rw [← hn] at hdrafts ⊢
            rw [hround, List.map_append, hdrafts, ← hlast, List.replicate_succ', ← hty, ← hety]
            rfl
        | prompt hty hphase hn =>
            cases hq
            cases hawait
        | verify hty hphase hn hpos hlength hdrafted hplanned hnext =>
            cases hq
            rw [hnext] at hawait
            cases hawait
        | retire hty hphase hn hpos hlength hdrafted hplanned => cases hq
        | preVerify hty hphase hn hpos hdrafted hlength hdone =>
            cases hq
            refine .inr ⟨?_, ?_, ?_⟩
            · -- the pre-verification was outstanding, so none was finished before
              rcases Q.awaiting _ req hact hphase with hnone | ⟨_, _, hno⟩
              · show (roundEvents _ req.specRound _).map _ = _
                rw [← hn] at hnone ⊢
                rw [hround, List.map_append, hnone, ← hty, ← hety]
                rfl
              · exact absurd hty (hno modelId info hinfo hid)
            · rw [hpre, if_neg (by simp)]
              exact hdone
            · intro mid i hi hreq
              obtain ⟨hne, hi⟩ := hmetaOther mid i hi
              exact absurd (I.single _ _ _ _ hi hinfo (hreq.trans hid.symm)) hne
    · next hne =>
        rw [hother _ _ fun hc => hne hc.1]
        rcases Q.awaiting id q hq hawait with hnone | ⟨hone, hdone, hno⟩
        · exact .inl hnone
        · refine .inr ⟨hone, by rw [hpreOther id hne]; exact hdone, fun mid i hi => ?_⟩
          exact hno mid i (hmetaOther mid i hi).2
  · intro id e' he'
    rw [roundEvents_finished] at he'
    rcases List.mem_append.mp he' with hold | hnew
    · exact Q.opening id e' hold
    · split at hnew
      · next hc =>
          rw [List.mem_singleton.mp hnew, hety]
          have hzero : info.verifyRound = 0 := heround.symm.trans hc.2
          rcases htask.round with ⟨hty, _⟩ | ⟨hn', hpos⟩
          · exact hty
          · omega
      · cases hnew
  · intro id n hn hp
    rw [hplans] at hp
    rw [hother, Q.unplanned id n hn hp]
    rintro ⟨rfl, rfl⟩
    -- the round of a finished task was planned
    rcases htask.round with ⟨_, _, hzero⟩ | ⟨hn', hpos⟩
    · omega
    · obtain ⟨hint, hplan⟩ := R.planned hpos
      rw [hn', hplan] at hp
      cases hp
  · intro id n k hint hn hp hout
    rw [hplans] at hp
    by_cases hc : id = req.requestId ∧ n = info.verifyRound
    · obtain ⟨rfl, rfl⟩ := hc
      rw [hround]
      have hlast : ∀ (hty : info.taskType = .verify) (hphase : req.specPhase = .awaitVerify)
          (hn : info.verifyRound = req.specRound)
          (hlength : info.draftLengthAtIssue = req.plannedDraftLength),
          RoundComplete k (roundEvents req.requestId info.verifyRound h ++ [e]) := by
        intro hty hphase hn' hlength
        obtain ⟨hint', hplan⟩ := R.planned (hn' ▸ hn)
        rw [hn', hplan] at hp
        cases hp
        refine .verified ?_ (hety.trans hty) (helength.trans hlength)
        rw [hn']
        exact (Q.awaiting _ req hact hphase).imp id fun h => h.1
      have hopen : ∀ r : LangRequest, after = some r → r.specRound = info.verifyRound →
          ¬ r.InRound := by
        intro r hr hn'
        exact hout { r with running := false } (by rw [hactive, if_pos rfl, hr]; rfl) hn'
      cases htask with
      | prompt hty hphase hn' => omega
      | draft hty hphase hn' hpos hlength hlt =>
          exact absurd (s.draftedRequest_inRound req) (hopen _ rfl hn'.symm)
      | preVerify hty hphase hn' hpos hdrafted hlength hdone =>
          exact absurd (.inr hphase) (hopen _ rfl hn'.symm)
      | verify hty hphase hn' hpos hlength hdrafted hplanned hnext =>
          exact hlast hty hphase hn' hlength
      | retire hty hphase hn' hpos hlength hdrafted hplanned =>
          exact hlast hty hphase hn' hlength
    · rw [hother id n hc]
      refine Q.closed id n k hint hn hp fun q hq hqn => ?_
      by_cases hreq : id = req.requestId
      · rw [hreq, hact, Option.some.injEq] at hq
        subst hq
        have hdiff : info.verifyRound ≠ req.specRound := fun h => hc ⟨hreq, hqn.symm.trans h.symm⟩
        rcases htask.round with ⟨_, hphase, _⟩ | ⟨hn', _⟩
        · exact LangRequest.not_inRound (.inl hphase)
        · exact absurd hn' hdiff
      · exact hout q (by rw [hactive, if_neg hreq]; exact hq) hqn
  · intro id
    rw [issuedFor_finished, completions_finished, hactive]
    have hcount := Q.counts id
    by_cases heq : id = req.requestId
    · subst heq
      rw [hact] at hcount
      rw [if_pos rfl, if_pos heid, List.length_append, hcount]
      cases after with
      | none => simp [hrunning]
      | some r => simp [hrunning]
    · rw [if_neg heq, if_neg fun hc => heq (hc.symm.trans heid), List.append_nil]
      exact hcount

/-- **Every move keeps the agreement.** -/
theorem RoundsOk.move {s s' : SpecDecodeScheduler} {h e : List Event} (I : ProtocolOk s)
    (Q : RoundsOk s h) (hm : Move s s' e) : RoundsOk s' (h ++ e) := by
  cases hm with
  | minor s' hm =>
      rw [List.append_nil]
      exact Q.minor hm
  | admitOne r rest hq =>
      rw [List.append_nil]
      exact Q.admitOne I hq
  | plan req hact hrun hphase => exact Q.plan I hact hphase
  | issue s₁ req req' model seqLength info built g hact hrun hprep hgen =>
      exact Q.issue I hact hrun hprep hgen
  | finish modelId info req hinfo hid hact htask => exact Q.finish I hinfo hid hact htask

end SpecDecodeScheduler

open SpecDecodeScheduler in
theorem SpecDecodeScheduler.Fresh.roundsOk {c : Setup} {s : SpecDecodeScheduler}
    (F : Fresh c s) : RoundsOk s [] := by
  refine ⟨?_, ?_, fun id e he => absurd he List.not_mem_nil, fun id n _ _ => rfl, ?_, ?_⟩
  · intro id r hr
    rw [F.noActive] at hr
    cases hr
  · intro id r hr
    rw [F.noActive] at hr
    cases hr
  · intro id n k hint _ hp
    rw [F.noPlan] at hp
    cases hp
  · intro id
    rw [F.noActive]
    rfl

open SpecDecodeScheduler in
theorem Setup.Reach.rounds {c : Setup} {s : SpecDecodeScheduler} {h : List Event}
    (ht : c.targetModel.isSome = true) (hr : c.Reach s h) : RoundsOk s h :=
  hr.induct ht (fun _ F => F.roundsOk) fun _ _ _ _ I _ Q hm => Q.move I hm

/-! ## 3. One outstanding model a request, and the shape of the rounds -/

section

open SpecDecodeScheduler

variable {c : Setup} {s : SpecDecodeScheduler} {h : List Event}

/-- A request is running exactly when one model of its is outstanding, and never has two. -/
theorem SpecDecodeScheduler.RoundsOk.outstanding_eq (Q : RoundsOk s h) {id : Nat}
    {r : LangRequest} (hact : s.activeRequests[id]? = some r) :
    outstanding id h = r.running.toNat := by
  have hcount := Q.counts id
  rw [hact] at hcount
  unfold outstanding
  rw [hcount]
  exact Nat.add_sub_cancel_left _ _

theorem SpecDecodeScheduler.ProtocolOk.running_iff (I : ProtocolOk s) {id : Nat}
    {r : LangRequest} (hact : s.activeRequests[id]? = some r) : r.running = true ↔
    ∃! mid : Nat, ∃ info : ModelMeta, s.modelMeta[mid]? = some info ∧ info.requestId = id := by
  constructor
  · intro hrun
    obtain ⟨mid, info, hinfo, hid⟩ := I.outstanding id r hact hrun
    refine ⟨mid, ⟨info, hinfo, hid⟩, ?_⟩
    rintro mid' ⟨info', hinfo', hid'⟩
    exact I.single _ _ _ _ hinfo' hinfo (hid'.trans hid.symm)
  · rintro ⟨mid, ⟨info, hinfo, hid⟩, _⟩
    obtain ⟨_, r', hr', hrun, _⟩ := I.tasks mid info hinfo
    rw [hid, hact, Option.some.injEq] at hr'
    rw [hr']
    exact hrun

/-- The outstanding task of a request fits its phase. -/
theorem SpecDecodeScheduler.TaskOk.phase {info : ModelMeta} {r : LangRequest}
    (htask : s.TaskOk info r) : info.taskType.phase = some r.specPhase := by
  unfold TaskOk at htask
  unfold LangTaskType.phase
  cases hty : info.taskType <;> rw [hty] at htask
  · exact htask.elim
  · rw [htask.1]
  · rw [htask.1]
  · rw [htask.1]
  · rw [htask.1]

/-- A round with a finished verification is finished. -/
theorem SpecDecodeScheduler.RoundsOk.complete (Q : RoundsOk s h) {id n : Nat}
    (hv : ∃ e ∈ roundEvents id n h, e.taskType = .verify) :
    ∃ k hint, s.planOf id n = some (k, hint) ∧ RoundComplete k (roundEvents id n h) := by
  obtain ⟨e, he, hty⟩ := hv
  have hn : 1 ≤ n := by
    refine Nat.pos_of_ne_zero fun hzero => ?_
    subst hzero
    rw [Q.opening id e he] at hty
    cases hty
  cases hp : s.planOf id n with
  | none =>
      rw [Q.unplanned id n hn hp] at he
      cases he
  | some p =>
      obtain ⟨k, hint⟩ := p
      refine ⟨k, hint, rfl, Q.closed id n k hint hn hp fun r hact hround hin => ?_⟩
      -- inside a round no verification is finished
      have hmem : LangTaskType.verify ∈ (roundEvents id r.specRound h).map (·.taskType) := by
        rw [hround]
        exact hty ▸ List.mem_map_of_mem he
      rcases hin with hphase | hphase
      · rw [Q.drafting id r hact hphase] at hmem
        simp at hmem
      · rcases Q.awaiting id r hact hphase with hk | ⟨hk, _⟩ <;> rw [hk] at hmem <;>
          simp at hmem

/-- **With a target model attached**, in every reachable state: an active request has at most one
    outstanding model and is marked as running exactly when it has one; the two maps of outstanding
    models have the same keys; an outstanding task fits the phase of its request; and every round
    with a finished verification is its planned drafts, then at most one pre-verification, then one
    verification of all drafts. -/
theorem one_outstanding_model (ht : c.targetModel.isSome = true) (hr : c.Reach s h) :
    (∀ (id : Nat) (r : LangRequest), s.activeRequests[id]? = some r →
      outstanding id h ≤ 1 ∧ (r.running = true ↔ outstanding id h = 1) ∧
      (r.running = true ↔ ∃! mid : Nat, ∃ info : ModelMeta,
        s.modelMeta[mid]? = some info ∧ info.requestId = id)) ∧
    (∀ mid : Nat, mid ∈ s.modelMeta ↔ mid ∈ s.requestsInModel) ∧
    (∀ (mid : Nat) (info : ModelMeta), s.modelMeta[mid]? = some info → ∃ r : LangRequest,
      s.activeRequests[info.requestId]? = some r ∧ info.taskType.phase = some r.specPhase) ∧
    (∀ id n : Nat, (∃ e ∈ roundEvents id n h, e.taskType = .verify) → ∃ k hint,
      s.planOf id n = some (k, hint) ∧ RoundComplete k (roundEvents id n h)) := by
  obtain ⟨I, _⟩ := hr.inv ht
  have Q := hr.rounds ht
  refine ⟨fun id r hact => ⟨?_, ?_, I.running_iff hact⟩, fun mid => ?_, fun mid info hinfo => ?_,
    fun id n hv => Q.complete hv⟩
  · rw [Q.outstanding_eq hact]
    exact Bool.toNat_le r.running
  · rw [Q.outstanding_eq hact]
    exact Bool.toNat_eq_one.symm
  · rw [TreeMap.mem_iff_isSome_getElem?, TreeMap.mem_iff_isSome_getElem?, I.inModel,
      Option.isSome_map]
  · obtain ⟨_, r, hact, _, htask⟩ := I.tasks mid info hinfo
    exact ⟨r, hact, htask.phase⟩

/-- A request with a prompt of four tokens, its first round: three drafts and their verification. -/
theorem one_outstanding_model_sample : ∃ s h,
    (sampleSetup [⟨0, 4, 6, 1⟩] [(⟨0, 1⟩, ⟨3, 0, 3⟩)]).Reach s h ∧
      RoundComplete 3 (roundEvents 0 1 h) := by
  obtain ⟨s, h, hr, hfacts⟩ := Setup.exists_reach
    (c := sampleSetup [⟨0, 4, 6, 1⟩] [(⟨0, 1⟩, ⟨3, 0, 3⟩)]) (l := finishing [2, 3, 4, 5, 6])
    (p := fun r => (roundEvents 0 1 r.2).any (·.taskType = .verify) &&
      (r.1.planOf 0 1).all (·.1 = 3)) (by decide +kernel)
  rw [Bool.and_eq_true, List.any_eq_true] at hfacts
  obtain ⟨⟨e, he, hty⟩, hlength⟩ := hfacts
  obtain ⟨_, _, _, hrounds⟩ := one_outstanding_model rfl hr
  obtain ⟨k, hint, hplan, hcomplete⟩ := hrounds 0 1 ⟨e, he, of_decide_eq_true hty⟩
  dsimp only at hlength
  rw [hplan] at hlength
  obtain rfl : k = 3 := of_decide_eq_true hlength
  exact ⟨s, h, hr, hcomplete⟩

end

end Ahasd
