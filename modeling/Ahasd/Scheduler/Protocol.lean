/-
  File:      Ahasd/Scheduler/Protocol.lean
  Subject:   THE INVARIANT OF THE SPECULATIVE PROTOCOL, with a target model attached.

  The scheduler's state is spread over the request records and six maps. `ProtocolOk` says how they
  hang together: who may be outstanding, which task fits which phase, which rounds have been
  planned.

  * `RequestOk`, `TaskOk`, `ProtocolOk`: the invariant, request by request and model by model;
  * `ProtocolOk.rule`: every rule keeps it.
-/
import Ahasd.Scheduler.Completion

namespace Ahasd

open Std Transition OrderedMap

/-! ## 1. The invariant -/

/-- What the phase of a request promises about it. -/
def LangRequest.PhaseFacts (r : LangRequest) : Prop :=
  match r.specPhase with
  | .promptPending => r.specRound = 0
  | .draftRoundStart => r.running = false
  | .drafting => 1 ≤ r.specRound ∧ r.draftedInRound < r.plannedDraftLength
  | .awaitVerify => 1 ≤ r.specRound ∧ r.draftedInRound = r.plannedDraftLength ∧
      1 ≤ r.plannedDraftLength
  | .done => False

namespace SpecDecodeScheduler

/-- The id was handed out before every id that still waits for admission. -/
def Admitted (s : SpecDecodeScheduler) (id : Nat) : Prop :=
  ∀ q ∈ s.requestQueue, id < q.requestId

/-- An active request under the key `id`. -/
structure RequestOk (s : SpecDecodeScheduler) (id : Nat) (r : LangRequest) : Prop where
  keyed : r.requestId = id
  admitted : s.Admitted id
  phase : r.PhaseFacts
  preVerified : ∀ n : Nat, s.preVerifiedInRound[id]? = some n → n ≤ r.specRound ∧
    (n = r.specRound → r.specPhase = .awaitVerify ∨ r.specPhase = .draftRoundStart)
  planned : 1 ≤ r.specRound → ∃ e, s.planOf id r.specRound = some (r.plannedDraftLength, e)
  unplanned : ∀ n, r.specRound < n → s.planOf id n = none

/-- An outstanding model and the request it was issued for. -/
def TaskOk (s : SpecDecodeScheduler) (info : ModelMeta) (r : LangRequest) : Prop :=
  match info.taskType with
  | .prompt => r.specPhase = .promptPending ∧ info.verifyRound = 0
  | .draft => r.specPhase = .drafting ∧ info.draftLengthAtIssue = r.plannedDraftLength ∧
      info.verifyRound = r.specRound
  | .verify => r.specPhase = .awaitVerify ∧ info.draftLengthAtIssue = r.plannedDraftLength ∧
      info.verifyRound = r.specRound
  | .preVerify => r.specPhase = .awaitVerify ∧
      (1 ≤ info.draftLengthAtIssue ∧ info.draftLengthAtIssue < r.plannedDraftLength) ∧
      info.verifyRound = r.specRound ∧
      s.preVerifiedInRound[info.requestId]? = some r.specRound
  | .autoreg => False

/-- **The invariant.** -/
structure ProtocolOk (s : SpecDecodeScheduler) : Prop where
  target : s.targetModel.isSome = true
  sorted : s.requestQueue.Pairwise fun a b => a.requestId < b.requestId
  requests : ∀ (id : Nat) (r : LangRequest), s.activeRequests[id]? = some r → s.RequestOk id r
  tasks : ∀ (mid : Nat) (info : ModelMeta), s.modelMeta[mid]? = some info → mid < s.globals.idCounter ∧
    ∃ r : LangRequest, s.activeRequests[info.requestId]? = some r ∧ r.running = true ∧ s.TaskOk info r
  single : ∀ (mid mid' : Nat) (info info' : ModelMeta), s.modelMeta[mid]? = some info →
    s.modelMeta[mid']? = some info' →
    info.requestId = info'.requestId → mid = mid'
  outstanding : ∀ (id : Nat) (r : LangRequest), s.activeRequests[id]? = some r → r.running = true →
    ∃ (mid : Nat) (info : ModelMeta), s.modelMeta[mid]? = some info ∧ info.requestId = id
  inModel : ∀ mid : Nat, s.requestsInModel[mid]? = (s.modelMeta[mid]?).map fun info => [info.requestId]
  preVerifiedAdmitted : ∀ id n : Nat, s.preVerifiedInRound[id]? = some n → s.Admitted id
  plannedAdmitted : ∀ id n p, s.planOf id n = some p → s.Admitted id

/-! ## 2. Rules that leave the protocol alone -/

/-- The two states agree on everything the invariant reads. -/
structure SameProtocol (s s' : SpecDecodeScheduler) : Prop where
  target : s'.targetModel = s.targetModel
  queue : s'.requestQueue = s.requestQueue
  active : s'.activeRequests = s.activeRequests
  modelMeta : s'.modelMeta = s.modelMeta
  inModel : ∀ mid : Nat, s'.requestsInModel[mid]? = s.requestsInModel[mid]?
  preVerified : s'.preVerifiedInRound = s.preVerifiedInRound
  plans : ∀ id n, s'.planOf id n = s.planOf id n
  ids : s.globals.idCounter ≤ s'.globals.idCounter

theorem ProtocolOk.same {s s' : SpecDecodeScheduler} (I : ProtocolOk s) (h : SameProtocol s s') :
    ProtocolOk s' := by
  have hadm : ∀ id, s'.Admitted id ↔ s.Admitted id := fun id => by
    unfold Admitted
    rw [h.queue]
  refine ⟨?_, ?_, ?_, ?_, ?_, ?_, ?_, ?_, ?_⟩
  · rw [h.target]
    exact I.target
  · rw [h.queue]
    exact I.sorted
  · intro id r hr
    rw [h.active] at hr
    obtain ⟨keyed, admitted, phase, preVerified, planned, unplanned⟩ := I.requests id r hr
    refine ⟨keyed, (hadm id).mpr admitted, phase, ?_, ?_, ?_⟩
    · rw [h.preVerified]
      exact preVerified
    · rw [h.plans]
      exact planned
    · intro n hn
      rw [h.plans]
      exact unplanned n hn
  · intro mid info hinfo
    rw [h.modelMeta] at hinfo
    obtain ⟨hlt, r, hr, hrun, htask⟩ := I.tasks mid info hinfo
    refine ⟨hlt.trans_le h.ids, r, by rw [h.active]; exact hr, hrun, ?_⟩
    unfold TaskOk at htask ⊢
    rw [h.preVerified]
    exact htask
  · rw [h.modelMeta]
    exact I.single
  · rw [h.active, h.modelMeta]
    exact I.outstanding
  · intro mid
    rw [h.inModel, h.modelMeta]
    exact I.inModel mid
  · intro id n hn
    rw [h.preVerified] at hn
    exact (hadm id).mpr (I.preVerifiedAdmitted id n hn)
  · intro id n p hp
    rw [h.plans] at hp
    exact (hadm id).mpr (I.plannedAdmitted id n p hp)

/-! ## 3. Admission -/

/-- The layer loop draws ids. -/
theorem initCaches_idCounter (maxDims firstDims : List Nat) (precision layers : Nat) (g : Globals) :
    g.idCounter ≤ (LangScheduler.initCaches maxDims firstDims precision layers g).2.idCounter := by
  induction layers generalizing g with
  | zero => exact Nat.le_refl _
  | succ layers ih =>
      unfold LangScheduler.initCaches
      refine Nat.le_trans ?_ (ih _)
      show g.idCounter ≤ g.idCounter + 1 + 1
      omega

theorem ProtocolOk.admitOne {s : SpecDecodeScheduler} (I : ProtocolOk s) {r : LangRequest}
    {rest : List LangRequest} (hq : s.requestQueue = r :: rest) :
    ProtocolOk { s with toLangScheduler :=
      s.toLangScheduler.admitOne (prepareRequest s.targetModel.isSome) r rest } := by
  have hsorted := I.sorted
  rw [hq, List.pairwise_cons] at hsorted
  obtain ⟨hfirst, hrest⟩ := hsorted
  have hmono : ∀ id, s.Admitted id → ∀ q ∈ rest, id < q.requestId := fun id h q hqr =>
    h q (hq ▸ List.mem_cons_of_mem r hqr)
  -- nothing of the state knows the admitted id yet
  have hnew : ¬ s.Admitted r.requestId := fun h =>
    Nat.lt_irrefl _ (h r (hq ▸ List.mem_cons_self))
  have hne : ∀ id r', s.activeRequests[id]? = some r' → id ≠ r.requestId := fun id r' h heq =>
    hnew (heq ▸ (I.requests id r' h).admitted)
  have hlookup : ∀ id r', s.activeRequests[id]? = some r' →
      (s.activeRequests.insert r.requestId
        (prepareRequest s.targetModel.isSome (s.toLangScheduler.initRequest r).1))[id]? =
          some r' := fun id r' h => by
    rw [lookup_insert, if_neg (hne id r' h)]
    exact h
  refine ⟨I.target, hrest, ?_, ?_, I.single, ?_, I.inModel, ?_, ?_⟩
  · intro id r' hr'
    change (s.activeRequests.insert r.requestId _)[id]? = some r' at hr'
    rw [lookup_insert] at hr'
    split at hr'
    · next heq =>
        cases hr'
        subst heq
        refine ⟨rfl, hfirst, ?_, ?_, ?_, ?_⟩
        · rw [I.target]
          exact rfl
        · intro n hn
          exact absurd (I.preVerifiedAdmitted _ _ hn) hnew
        · intro h
          exact absurd h (Nat.not_succ_le_zero 0)
        · intro n _
          cases hp : s.planOf r.requestId n with
          | none => exact hp
          | some p => exact absurd (I.plannedAdmitted _ _ _ hp) hnew
    · obtain ⟨keyed, admitted, phase, preVerified, planned, unplanned⟩ := I.requests id r' hr'
      exact ⟨keyed, hmono id admitted, phase, preVerified, planned, unplanned⟩
  · intro mid info hinfo
    obtain ⟨hlt, r', hr', hrun, htask⟩ := I.tasks mid info hinfo
    exact ⟨hlt.trans_le (initCaches_idCounter _ _ _ _ _), r', hlookup _ _ hr', hrun, htask⟩
  · intro id r' hr' hrun
    change (s.activeRequests.insert r.requestId _)[id]? = some r' at hr'
    rw [lookup_insert] at hr'
    split at hr'
    · cases hr'
      cases hrun
    · exact I.outstanding id r' hr' hrun
  · intro id n hn
    exact hmono id (I.preVerifiedAdmitted id n hn)
  · intro id n p hp
    exact hmono id (I.plannedAdmitted id n p hp)

/-! ## 4. Planning and issuing -/

/-- Planning keeps the plans of the other rounds and enters the new one. -/
theorem planRound_planOf (s : SpecDecodeScheduler) (req : LangRequest) (id n : Nat) :
    (s.planRound req).2.planOf id n =
      if id = req.requestId ∧ n = req.specRound + 1 then
        some ((s.pickDraftLength req).1, computeEntropyHint (s.plannedRequest req))
      else s.planOf id n := by
  obtain ⟨ssrc, deferred, h⟩ := s.planRound_eq req
  unfold planOf
  rw [h]
  dsimp only
  rw [lookup_insert]
  simp only [Prod.mk.injEq]
  split <;> rfl

theorem ProtocolOk.plan {s : SpecDecodeScheduler} (I : ProtocolOk s) {req : LangRequest}
    (hact : s.activeRequests[req.requestId]? = some req) (hrun : req.running = false) :
    ProtocolOk (s.planRound req).2 := by
  obtain ⟨ssrc, deferred, heq⟩ := s.planRound_eq req
  have hplans := s.planRound_planOf req
  have R := I.requests _ _ hact
  generalize (s.planRound req).2 = s' at heq hplans ⊢
  have hactive : ∀ id : Nat, s'.activeRequests[id]? =
      if id = req.requestId then some (s.plannedRequest req) else s.activeRequests[id]? := by
    intro id
    rw [heq]
    exact lookup_insert _ _ _ _
  have hadm : ∀ id, s'.Admitted id ↔ s.Admitted id := fun id => by
    unfold Admitted
    rw [heq]
  have hpre : s'.preVerifiedInRound = s.preVerifiedInRound := by rw [heq]
  have hmeta : s'.modelMeta = s.modelMeta := by rw [heq]
  -- the planned request has no outstanding model
  have hother : ∀ (mid : Nat) (info : ModelMeta), s.modelMeta[mid]? = some info →
      info.requestId ≠ req.requestId := by
    intro mid info hinfo hid
    obtain ⟨_, r, hr, hrunning, _⟩ := I.tasks mid info hinfo
    rw [hid, hact, Option.some.injEq] at hr
    rw [← hr, hrun] at hrunning
    cases hrunning
  refine ⟨by rw [heq]; exact I.target, by rw [heq]; exact I.sorted, ?_, ?_, ?_, ?_, ?_, ?_, ?_⟩
  · intro id r hr
    rw [hactive] at hr
    split at hr
    · next hid =>
        cases hr
        refine ⟨hid.symm, (hadm id).mpr (hid ▸ R.admitted), ?_, ?_, ?_, ?_⟩
        · exact ⟨Nat.succ_pos _, (s.pickDraftLength_bounds req).1⟩
        · intro n hn
          rw [hpre, hid] at hn
          have hle := (R.preVerified n hn).1
          refine ⟨Nat.le_succ_of_le hle, fun h => ?_⟩
          have : n = req.specRound + 1 := h
          omega
        · intro _
          rw [hplans, if_pos ⟨hid, rfl⟩]
          exact ⟨_, rfl⟩
        · intro n hn
          have hn' : req.specRound + 1 < n := hn
          rw [hplans, if_neg (fun h => by omega), hid]
          exact R.unplanned n (by omega)
    · next hid =>
        obtain ⟨keyed, admitted, phase, preVerified, planned, unplanned⟩ := I.requests id r hr
        refine ⟨keyed, (hadm id).mpr admitted, phase, by rw [hpre]; exact preVerified, ?_, ?_⟩
        · rw [hplans, if_neg (fun h => hid h.1)]
          exact planned
        · intro n hn
          rw [hplans, if_neg (fun h => hid h.1)]
          exact unplanned n hn
  · intro mid info hinfo
    rw [hmeta] at hinfo
    obtain ⟨hlt, r, hr, hrunning, htask⟩ := I.tasks mid info hinfo
    refine ⟨by rw [heq]; exact hlt, r, ?_, hrunning, ?_⟩
    · rw [hactive, if_neg (hother mid info hinfo)]
      exact hr
    · unfold TaskOk at htask ⊢
      rw [hpre]
      exact htask
  · rw [hmeta]
    exact I.single
  · intro id r hr hrunning
    rw [hactive] at hr
    rw [hmeta]
    split at hr
    · cases hr
      rw [show (s.plannedRequest req).running = req.running from rfl, hrun] at hrunning
      cases hrunning
    · exact I.outstanding id r hr hrunning
  · intro mid
    rw [hmeta, heq]
    exact I.inModel mid
  · intro id n hn
    rw [hpre] at hn
    exact (hadm id).mpr (I.preVerifiedAdmitted id n hn)
  · intro id n p hp
    rw [hplans] at hp
    refine (hadm id).mpr ?_
    split at hp
    · next h => exact h.1 ▸ R.admitted
    · exact I.plannedAdmitted id n p hp

/-- The task of a prepared model fits the request it is issued for. -/
theorem Prepared.taskOk {s s₁ : SpecDecodeScheduler} {req req' : LangRequest}
    {model : LanguageModel} {seqLength : Nat} {info : ModelMeta}
    (h : Prepared s req s₁ req' model seqLength info) (hphase : req.PhaseFacts)
    (s' : SpecDecodeScheduler) (hpre : s'.preVerifiedInRound = s₁.preVerifiedInRound) :
    s'.TaskOk info { req' with lastTaskType := info.taskType, running := true } := by
  have hinsert := h.preVerified_eq
  unfold TaskOk
  rw [hpre, hinsert]
  unfold LangRequest.PhaseFacts at hphase
  cases h with
  | prompt h => exact ⟨h, rfl⟩
  | draft h => exact ⟨h, rfl, rfl⟩
  | verify h hpv =>
      simp only [h] at hphase
      refine ⟨h, ?_, rfl⟩
      show max 1 req.plannedDraftLength = req.plannedDraftLength
      omega
  | preVerify h hpv =>
      simp only [h] at hphase
      obtain ⟨hpos, hlt⟩ := hpv
      refine ⟨h, ⟨hpos, ?_⟩, rfl, ?_⟩
      · show (s.decidePreVerify req).1 < req.plannedDraftLength
        omega
      · show ((if _ then _ else _ : TreeMap Nat Nat))[req.requestId]? = _
        rw [if_pos rfl, lookup_insert, if_pos rfl]

/-- Preparing a task keeps every plan: the round it belongs to has one. -/
theorem ProtocolOk.prepared_planOf {s s₁ : SpecDecodeScheduler} (I : ProtocolOk s)
    {req req' : LangRequest} {model : LanguageModel} {seqLength : Nat} {info : ModelMeta}
    (hact : s.activeRequests[req.requestId]? = some req)
    (hprep : Prepared s req s₁ req' model seqLength info) (id n : Nat) :
    s₁.planOf id n = s.planOf id n := by
  refine hprep.planOf_eq (fun h => ?_) id n
  have R := I.requests _ _ hact
  have hround : 1 ≤ req.specRound := by
    have hp := R.phase
    unfold LangRequest.PhaseFacts at hp
    cases hprep with
    | prompt h' => exact absurd h' h
    | draft h' => rw [h'] at hp; exact hp.1
    | verify h' _ => rw [h'] at hp; exact hp.1
    | preVerify h' _ => rw [h'] at hp; exact hp.1
  obtain ⟨e, he⟩ := R.planned hround
  rw [he]
  rfl

theorem ProtocolOk.issue {s s₁ : SpecDecodeScheduler} (I : ProtocolOk s) {req req' : LangRequest}
    {model : LanguageModel} {seqLength : Nat} {info : ModelMeta} {built : Model} {g : Globals}
    (hact : s.activeRequests[req.requestId]? = some req) (hrun : req.running = false)
    (hprep : Prepared s req s₁ req' model seqLength info)
    (hgen : model.generateModel [modelInput req' info.taskType seqLength] s.globals =
      some (built, g)) : ProtocolOk (s₁.launched req' info built g) := by
  have R := I.requests _ _ hact
  have hplans := I.prepared_planOf hact hprep
  have htask := hprep.taskOk R.phase (s₁.launched req' info built g) rfl
  have hphaseOf : info.taskType = .preVerify → req.specPhase = .awaitVerify := by
    intro h
    cases hprep with
    | preVerify h' _ => exact h'
    | _ => cases h
  have hid := hprep.request.2
  have L := hprep.launched hgen
  obtain ⟨v, hactive⟩ := L.active
  have hmeta := L.modelMeta
  have hpre' := L.preVerified
  have hbuilt := L.fresh
  have hcounter := L.counter
  have hplans' : ∀ id n, (s₁.launched req' info built g).planOf id n = s.planOf id n := hplans
  have htask' : (s₁.launched req' info built g).TaskOk info
      { req with verifyRoundId := v, lastTaskType := info.taskType, running := true } := by
    have hsame := htask
    unfold TaskOk at hsame ⊢
    rw [hprep.request.1] at hsame
    exact hsame
  have hqueue := L.queue
  have htarget := L.target
  have hmodels := L.inModel
  generalize s₁.launched req' info built g = s' at *
  have hadm : ∀ id, s'.Admitted id ↔ s.Admitted id := fun id => by
    unfold Admitted
    rw [hqueue]
  -- the new model id is fresh
  have hfresh : s.modelMeta[built.id]? = none := by
    cases h : s.modelMeta[built.id]? with
    | none => rfl
    | some info' =>
        have := (I.tasks _ _ h).1
        omega
  have hother : ∀ (mid : Nat) (info' : ModelMeta), s.modelMeta[mid]? = some info' →
      info'.requestId ≠ req.requestId := by
    intro mid info' hinfo h
    obtain ⟨_, r, hr, hrunning, _⟩ := I.tasks mid info' hinfo
    rw [h, hact, Option.some.injEq] at hr
    rw [← hr, hrun] at hrunning
    cases hrunning
  -- what was remembered of the other requests, and what is remembered of this one
  have hpreOther : ∀ id : Nat, id ≠ req.requestId →
      s'.preVerifiedInRound[id]? = s.preVerifiedInRound[id]? := by
    intro id hne
    rw [hpre']
    split
    · rw [lookup_insert, if_neg hne]
    · rfl
  have hpreSame : ∀ n : Nat, s'.preVerifiedInRound[req.requestId]? = some n →
      s.preVerifiedInRound[req.requestId]? = some n ∨
        (n = req.specRound ∧ req.specPhase = .awaitVerify) := by
    intro n hn
    rw [hpre'] at hn
    split at hn
    · next h =>
        rw [lookup_insert, if_pos rfl, Option.some.injEq] at hn
        exact .inr ⟨hn.symm, hphaseOf h⟩
    · exact .inl hn
  refine ⟨?_, ?_, ?_, ?_, ?_, ?_, ?_, ?_, ?_⟩
  · rw [htarget]
    exact I.target
  · rw [hqueue]
    exact I.sorted
  · intro id r hr
    rw [hactive] at hr
    split at hr
    · next heq =>
        cases hr
        subst heq
        refine ⟨rfl, (hadm _).mpr R.admitted, ?_, ?_, ?_, ?_⟩
        · have hp := R.phase
          unfold LangRequest.PhaseFacts at hp ⊢
          dsimp only
          cases hprep with
          | prompt h => rw [h] at hp ⊢; exact hp
          | draft h => rw [h] at hp ⊢; exact hp
          | verify h _ => rw [h] at hp ⊢; exact hp
          | preVerify h _ => rw [h] at hp ⊢; exact hp
        · intro n hn
          rcases hpreSame n hn with h | ⟨h, hphase⟩
          · exact R.preVerified n h
          · exact ⟨h.le, fun _ => .inl hphase⟩
        · intro h
          rw [hplans']
          exact R.planned h
        · intro n hn
          rw [hplans']
          exact R.unplanned n hn
    · next hne =>
        obtain ⟨keyed, admitted, phase, preVerified, planned, unplanned⟩ := I.requests id r hr
        refine ⟨keyed, (hadm id).mpr admitted, phase, ?_, ?_, ?_⟩
        · rw [hpreOther id hne]
          exact preVerified
        · rw [hplans']
          exact planned
        · intro n hn
          rw [hplans']
          exact unplanned n hn
  · intro mid info' hinfo
    rw [hmeta] at hinfo
    rw [hcounter]
    split at hinfo
    · next heq =>
        cases hinfo
        refine ⟨by omega, _, ?_, rfl, htask'⟩
        rw [hactive, hid, if_pos rfl]
    · obtain ⟨hlt, r, hr, hrunning, hold⟩ := I.tasks mid info' hinfo
      have hne := hother mid info' hinfo
      refine ⟨by omega, r, ?_, hrunning, ?_⟩
      · rw [hactive, if_neg hne]
        exact hr
      · unfold TaskOk at hold ⊢
        rw [hpreOther _ hne]
        exact hold
  · intro mid mid' i i' h h' heq
    rw [hmeta] at h h'
    split at h <;> split at h'
    · next e e' => rw [e, e']
    · cases h
      exact absurd (heq.symm.trans hid) (hother mid' i' h')
    · cases h'
      exact absurd (heq.trans hid) (hother mid i h)
    · exact I.single mid mid' i i' h h' heq
  · intro id r hr hrunning
    rw [hactive] at hr
    split at hr
    · next heq =>
        exact ⟨built.id, info, by rw [hmeta, if_pos rfl], hid.trans heq.symm⟩
    · obtain ⟨mid, i, hi, hiid⟩ := I.outstanding id r hr hrunning
      refine ⟨mid, i, ?_, hiid⟩
      rw [hmeta, if_neg]
      · exact hi
      · intro h
        rw [h, hfresh] at hi
        cases hi
  · intro mid
    rw [hmodels, hmeta]
    split
    · rw [I.inModel, hfresh, ← hid]
      rfl
    · exact I.inModel mid
  · intro id n hn
    refine (hadm id).mpr ?_
    by_cases hne : id = req.requestId
    · exact hne ▸ R.admitted
    · rw [hpreOther id hne] at hn
      exact I.preVerifiedAdmitted id n hn
  · intro id n p hp
    rw [hplans'] at hp
    exact (hadm id).mpr (I.plannedAdmitted id n p hp)

/-! ## 5. Completion -/

/-- What a verification leaves of a request that goes on. -/
theorem applyVerifyResult_next {s : SpecDecodeScheduler} {req : LangRequest} {accepted : Nat}
    (h : (s.applyVerifyResult req accepted).specPhase ≠ .done) :
    (s.applyVerifyResult req accepted).specPhase = .draftRoundStart := by
  unfold applyVerifyResult at h ⊢
  dsimp only at h ⊢
  split at h
  · exact absurd rfl h
  · next hlt => rw [if_neg hlt]

/-- A verification keeps the round and its plan. -/
theorem applyVerifyResult_round (s : SpecDecodeScheduler) (req : LangRequest) (accepted : Nat) :
    (s.applyVerifyResult req accepted).specRound = req.specRound ∧
      (s.applyVerifyResult req accepted).plannedDraftLength = req.plannedDraftLength := by
  unfold applyVerifyResult
  dsimp only
  split <;> exact ⟨rfl, rfl⟩

/-- **A request after its task**: still in its round, in a phase it may be in. -/
theorem afterTask_ok {s : SpecDecodeScheduler} {req r : LangRequest} {info : ModelMeta}
    (htask : s.TaskOk info req) (hphase : req.PhaseFacts) (hr : s.afterTask req info = some r) :
    { r with running := false }.PhaseFacts ∧ r.requestId = req.requestId ∧
      r.specRound = req.specRound ∧ r.plannedDraftLength = req.plannedDraftLength ∧
      (req.specPhase = .awaitVerify ∨ req.specPhase = .draftRoundStart →
        r.specPhase = .awaitVerify ∨ r.specPhase = .draftRoundStart) := by
  unfold afterTask at hr
  unfold TaskOk at htask
  unfold LangRequest.PhaseFacts at hphase ⊢
  cases hty : info.taskType with
  | autoreg =>
      rw [hty] at htask
      exact htask.elim
  | prompt =>
      rw [hty] at hr
      cases hr
      exact ⟨rfl, rfl, rfl, rfl, fun _ => .inr rfl⟩
  | draft =>
      rw [hty] at hr htask
      cases hr
      simp only [htask.1] at hphase
      refine ⟨?_, rfl, rfl, rfl, fun h => ?_⟩
      · unfold draftedRequest LangRequest.resizeCache
        dsimp only
        by_cases hlast : req.draftedInRound + 1 ≥ req.plannedDraftLength
        · simp only [if_pos hlast]
          omega
        · simp only [if_neg hlast]
          omega
      · rw [htask.1] at h
        rcases h with h | h <;> cases h
  | preVerify =>
      rw [hty] at hr htask
      cases hr
      refine ⟨?_, rfl, rfl, rfl, id⟩
      simp only [htask.1] at hphase ⊢
      exact hphase
  | verify =>
      rw [hty] at hr
      dsimp only at hr
      split at hr
      · cases hr
      · next hgo =>
          cases hr
          obtain ⟨hround, hplan⟩ := s.applyVerifyResult_round req (s.acceptedBy req info)
          have hnext := applyVerifyResult_next hgo
          refine ⟨?_, applyVerifyResult_requestId _ _ _, hround, hplan, fun _ => .inr hnext⟩
          simp only [hnext]

/-- A completion keeps every plan: the round it belongs to has one. -/
theorem ProtocolOk.completed_plans {s : SpecDecodeScheduler} (I : ProtocolOk s) {modelId : Nat}
    {info : ModelMeta} {req : LangRequest} (hinfo : s.modelMeta[modelId]? = some info)
    (hid : info.requestId = req.requestId) (hact : s.activeRequests[req.requestId]? = some req)
    (id n : Nat) : (s.completed modelId req info).2.planOf id n = s.planOf id n := by
  refine s.completed_planOf modelId req info (fun h => ?_) id n
  have R := I.requests _ _ hact
  obtain ⟨_, r, hr, _, htask⟩ := I.tasks _ _ hinfo
  rw [hid, hact, Option.some.injEq] at hr
  subst hr
  have hround : info.verifyRound = req.specRound ∧ 1 ≤ req.specRound := by
    have hp := R.phase
    unfold LangRequest.PhaseFacts at hp
    unfold TaskOk at htask
    rcases h with h | h <;> rw [h] at htask <;> rw [htask.1] at hp <;>
      exact ⟨htask.2.2, hp.1⟩
  obtain ⟨e, he⟩ := R.planned hround.2
  rw [hround.1, he]
  rfl

theorem ProtocolOk.finish {s : SpecDecodeScheduler} (I : ProtocolOk s) {modelId : Nat}
    {info : ModelMeta} {req : LangRequest} (hinfo : s.modelMeta[modelId]? = some info)
    (hact : s.activeRequests[info.requestId]? = some req) :
    ProtocolOk (s.completed modelId req info).2 := by
  have R := I.requests _ _ hact
  have hid : info.requestId = req.requestId := R.keyed.symm
  rw [hid] at hact R
  obtain ⟨hlt, req', hreq', hrunning, htask⟩ := I.tasks _ _ hinfo
  rw [hid, hact, Option.some.injEq] at hreq'
  subst hreq'
  have hactive := s.completed_activeRequests modelId req info hid hact
  have hplans := I.completed_plans hinfo hid hact
  have hmeta : ∀ mid : Nat, (s.completed modelId req info).2.modelMeta[mid]? =
      if mid = modelId then none else s.modelMeta[mid]? := by
    intro mid
    rw [completed_modelMeta]
    exact lookup_erase _ _ _
  have hpre : ∀ id n : Nat, (s.completed modelId req info).2.preVerifiedInRound[id]? = some n →
      s.preVerifiedInRound[id]? = some n := by
    intro id n hn
    rw [completed_preVerifiedInRound] at hn
    split at hn
    · rw [lookup_erase] at hn
      split at hn
      · cases hn
      · exact hn
    · exact hn
  have hadm : ∀ id, (s.completed modelId req info).2.Admitted id ↔ s.Admitted id := fun id => by
    unfold Admitted
    rw [completed_requestQueue]
  -- the request has no other outstanding model
  have hother : ∀ (mid : Nat) (i : ModelMeta), mid ≠ modelId → s.modelMeta[mid]? = some i →
      i.requestId ≠ req.requestId := by
    intro mid i hne hi h
    exact hne (I.single mid modelId i info hi hinfo (h.trans hid.symm))
  refine ⟨?_, ?_, ?_, ?_, ?_, ?_, ?_, ?_, ?_⟩
  · obtain ⟨_, _, _, _, _, _, _, _, _, _, _, _, _, h⟩ := s.completed_frame modelId req info
    rw [h]
    exact I.target
  · rw [completed_requestQueue]
    exact I.sorted
  · intro id r hr
    rw [hactive] at hr
    split at hr
    · next heq =>
        subst heq
        obtain ⟨r₀, hr₀, rfl⟩ := Option.map_eq_some_iff.mp hr
        obtain ⟨hphase, hkey, hround, hplan, hkeep⟩ := afterTask_ok htask R.phase hr₀
        refine ⟨hkey, (hadm _).mpr R.admitted, hphase, ?_, ?_, ?_⟩
        · intro n hn
          obtain ⟨hle, hsame⟩ := R.preVerified n (hpre _ n hn)
          rw [hround]
          exact ⟨hle, fun h => hkeep (hsame h)⟩
        · rw [hround, hplan]
          intro h
          rw [hplans]
          exact R.planned h
        · rw [hround]
          intro n hn
          rw [hplans]
          exact R.unplanned n hn
    · obtain ⟨keyed, admitted, phase, preVerified, planned, unplanned⟩ := I.requests id r hr
      refine ⟨keyed, (hadm id).mpr admitted, phase, fun n hn => preVerified n (hpre id n hn), ?_, ?_⟩
      · rw [hplans]
        exact planned
      · intro n hn
        rw [hplans]
        exact unplanned n hn
  · intro mid i hi
    rw [hmeta] at hi
    split at hi
    · cases hi
    · next hne =>
        obtain ⟨hlt', r, hr, hrun', hold⟩ := I.tasks mid i hi
        have hne' := hother mid i hne hi
        refine ⟨by rw [completed_globals]; exact hlt', r, ?_, hrun', ?_⟩
        · rw [hactive, if_neg hne']
          exact hr
        · have hsame : (s.completed modelId req info).2.preVerifiedInRound[i.requestId]? =
              s.preVerifiedInRound[i.requestId]? := by
            rw [completed_preVerifiedInRound]
            split
            · rw [lookup_erase, if_neg hne']
            · rfl
          unfold TaskOk at hold ⊢
          rw [hsame]
          exact hold
  · intro mid mid' i i' h h' heq
    rw [hmeta] at h h'
    split at h
    · cases h
    · split at h'
      · cases h'
      · exact I.single mid mid' i i' h h' heq
  · intro id r hr hrun'
    rw [hactive] at hr
    split at hr
    · obtain ⟨r₀, _, rfl⟩ := Option.map_eq_some_iff.mp hr
      cases hrun'
    · next hne =>
        obtain ⟨mid, i, hi, hiid⟩ := I.outstanding id r hr hrun'
        refine ⟨mid, i, ?_, hiid⟩
        rw [hmeta, if_neg]
        · exact hi
        · intro h
          rw [h, hinfo, Option.some.injEq] at hi
          exact hne (hiid.symm.trans (hi ▸ hid))
  · intro mid
    rw [hmeta, completed_requestsInModel, lookup_erase]
    split
    · rfl
    · exact I.inModel mid
  · intro id n hn
    exact (hadm id).mpr (I.preVerifiedAdmitted id n (hpre id n hn))
  · intro id n p hp
    rw [hplans] at hp
    exact (hadm id).mpr (I.plannedAdmitted id n p hp)

/-- A model that was never recorded is in no batch: finishing it only clears the events. -/
theorem ProtocolOk.stray_eq {s : SpecDecodeScheduler} (I : ProtocolOk s) {modelId : Nat}
    {base : LangScheduler} (hinfo : s.modelMeta[modelId]? = none)
    (hbase : s.toLangScheduler.finishModel modelId = some base) :
    base = { s.toLangScheduler with
      lastFinishedEvents := []
      requestsInModel := s.requestsInModel.erase modelId } := by
  have hin := I.inModel modelId
  rw [hinfo] at hin
  unfold LangScheduler.finishModel at hbase
  rw [hin] at hbase
  exact (Option.some.inj hbase).symm

/-! ## 6. The rules keep the invariant -/

/-- **Every rule keeps the invariant.** -/
theorem ProtocolOk.rule {s s' : SpecDecodeScheduler} {e : List Event} (I : ProtocolOk s)
    (h : Rule s s' e) : ProtocolOk s' := by
  cases h with
  | tick => exact I.same ⟨rfl, rfl, rfl, rfl, fun _ => rfl, rfl, fun _ _ => rfl, Nat.le_refl _⟩
  | admitOne r rest hq ht => exact I.admitOne hq
  | unstall id =>
      exact I.same ⟨rfl, rfl, rfl, rfl, fun _ => rfl, rfl, fun _ _ => rfl, Nat.le_refl _⟩
  | plan req hact hrun hphase => exact I.plan hact hrun
  | issue s₁ req req' model seqLength info built g hact hrun hprep hgen =>
      exact I.issue hact hrun hprep hgen
  | pop model rest hq =>
      exact I.same ⟨rfl, rfl, rfl, rfl, fun _ => rfl, rfl, fun _ _ => rfl, Nat.le_refl _⟩
  | finish modelId info req hinfo hact => exact I.finish hinfo hact
  | orphan modelId info hinfo hact =>
      obtain ⟨_, r, hr, _⟩ := I.tasks _ _ hinfo
      rw [hact] at hr
      cases hr
  | stray modelId base hinfo hbase =>
      obtain rfl := I.stray_eq hinfo hbase
      refine I.same ⟨rfl, rfl, rfl, rfl, fun mid => ?_, rfl, fun _ _ => rfl, Nat.le_refl _⟩
      refine (lookup_erase _ _ _).trans ?_
      split
      · next heq => rw [heq, I.inModel, hinfo]; rfl
      · rfl
  | beacon npuCycle =>
      exact I.same ⟨rfl, rfl, rfl, rfl, fun _ => rfl, rfl, fun _ _ => rfl, Nat.le_refl _⟩
  | memory f g hf hg =>
      exact I.same ⟨rfl, rfl, rfl, rfl, fun _ => rfl, rfl, fun _ _ => rfl, Nat.le_refl _⟩
  | draw g hg => exact I.same ⟨rfl, rfl, rfl, rfl, fun _ => rfl, rfl, fun _ _ => rfl, hg⟩

theorem ProtocolOk.chain {s s' : SpecDecodeScheduler} {e : List Event} (I : ProtocolOk s)
    (h : Chain Rule s s' e) : ProtocolOk s' :=
  h.preserves (P := fun s _ => ProtocolOk s) (fun _ _ _ _ I hr => I.rule hr) I (h := [])

end SpecDecodeScheduler

end Ahasd
