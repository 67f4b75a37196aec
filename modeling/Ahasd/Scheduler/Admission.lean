/-
  File:      Ahasd/Scheduler/Admission.lean
  Subject:   THE BATCH BOUND: how many requests are active at once.

  `cycle` guards the admission loop by `size <= max`, and the loop itself stops after an insertion
  that makes `size >= max`. A batch that is exactly full passes the guard, so a waiting request that
  has arrived is admitted past the bound.

  * `LangScheduler.QueueOk`: the waiting requests are not active;
  * `SameBatch`, `Shrinks`: what the calls do to the set of active requests;
  * `AdmitsPastFull`: the state before a call that admits one request too many;
  * `Setup.Reach.step_size`: one call keeps the bound exactly when it does not admit past it;
    `active_le_maxBatch`: the same over every run.
-/
import Ahasd.Scheduler.Runs

namespace Ahasd

open Std Transition OrderedMap

namespace LangScheduler

/-! ## 1. The admission loop -/

/-- The waiting requests come in the order of their ids, after every active one. -/
structure QueueOk (s : LangScheduler) : Prop where
  sorted : s.requestQueue.Pairwise fun a b => a.requestId < b.requestId
  admitted : ∀ id : Nat, s.activeRequests[id]?.isSome = true →
    ∀ q ∈ s.requestQueue, id < q.requestId

/-- The request at the front of the queue is not active yet. -/
theorem QueueOk.fresh {s : LangScheduler} (Q : QueueOk s) {r : LangRequest}
    {rest : List LangRequest} (hq : s.requestQueue = r :: rest) :
    s.activeRequests[r.requestId]? = none := by
  cases hact : s.activeRequests[r.requestId]? with
  | none => rfl
  | some x =>
      have hlt := Q.admitted r.requestId (by rw [hact]; rfl) r (hq ▸ List.mem_cons_self)
      exact absurd hlt (Nat.lt_irrefl _)

theorem QueueOk.admitOne {s : LangScheduler} (Q : QueueOk s) (prepare : LangRequest → LangRequest)
    {r : LangRequest} {rest : List LangRequest} (hq : s.requestQueue = r :: rest) :
    QueueOk (s.admitOne prepare r rest) := by
  have hsorted := Q.sorted
  rw [hq, List.pairwise_cons] at hsorted
  refine ⟨hsorted.2, fun id hid q hqr => ?_⟩
  change (s.activeRequests.insert r.requestId _)[id]?.isSome = true at hid
  rw [lookup_insert] at hid
  split at hid
  · next heq =>
      rw [heq]
      exact hsorted.1 q hqr
  · exact Q.admitted id hid q (hq ▸ List.mem_cons_of_mem r hqr)

section Loop

variable (prepare : LangRequest → LangRequest)

theorem QueueOk.admitLoop {s : LangScheduler} (Q : QueueOk s) :
    QueueOk (s.admitLoop prepare s.requestQueue) :=
  admitLoop_of_admitOne (fun _ _ _ hq _ Q => Q.admitOne prepare hq) Q

/-- **Entered below the bound, the loop stops at the bound.** -/
theorem admitLoop_size_le (queue : List LangRequest) {s : LangScheduler}
    (h : s.activeRequests.size < s.maxBatchSize) :
    (s.admitLoop prepare queue).activeRequests.size ≤ s.maxBatchSize := by
  induction queue generalizing s with
  | nil => exact h.le
  | cons r rest ih =>
      have hgrow : (s.admitOne prepare r rest).activeRequests.size ≤ s.activeRequests.size + 1 :=
        TreeMap.size_insert_le
      unfold LangScheduler.admitLoop
      dsimp only
      split
      · split
        · omega
        · next hroom =>
            have hpos : 0 < s.maxBatchSize := Nat.zero_lt_of_lt h
            have hlt : (s.admitOne prepare r rest).activeRequests.size < s.maxBatchSize :=
              Nat.lt_of_not_le fun hge => hroom ⟨hpos, hge⟩
            exact ih hlt
      · exact h.le

/-- **Entered with a full batch, the loop admits one request past the bound**, when one has
    arrived. -/
theorem admitLoop_size_full {s : LangScheduler} (Q : QueueOk s) (hpos : 0 < s.maxBatchSize)
    (hfull : s.activeRequests.size = s.maxBatchSize) :
    (s.admitLoop prepare s.requestQueue).activeRequests.size =
      if ∃ r, s.requestQueue.head? = some r ∧ r.requestTime ≤ s.cycleCount then s.maxBatchSize + 1
      else s.maxBatchSize := by
  cases hq : s.requestQueue with
  | nil =>
      rw [if_neg (by simp)]
      exact hfull
  | cons r rest =>
      unfold admitLoop
      dsimp only
      by_cases ht : r.requestTime ≤ s.cycleCount
      · have hsize : (s.admitOne prepare r rest).activeRequests.size = s.maxBatchSize + 1 := by
          rw [← hfull]
          exact size_insert_new _ (Q.fresh hq)
        have hstop : (s.admitOne prepare r rest).maxBatchSize > 0 ∧
            (s.admitOne prepare r rest).activeRequests.size ≥ (s.admitOne prepare r rest).maxBatchSize :=
          ⟨hpos, hsize.ge.trans' (Nat.le_succ _)⟩
        rw [if_pos ht, if_pos hstop, if_pos ⟨r, rfl, ht⟩, hsize]
      · rw [if_neg ht, if_neg]
        · exact hfull
        · rintro ⟨r', hr', ht'⟩
          cases hr'
          exact ht ht'

end Loop

/-! ## 2. The calls of the base scheduler -/

/-- The active requests after are among those before, and the bound is the same. -/
structure Shrinks (s s' : LangScheduler) : Prop where
  within : KeysWithin s'.activeRequests s.activeRequests
  queue : s'.requestQueue = s.requestQueue
  limit : s'.maxBatchSize = s.maxBatchSize

/-- The active requests are the same ones, and so is the bound. -/
structure SameBatch (s s' : LangScheduler) : Prop extends Shrinks s s' where
  contains : KeysWithin s.activeRequests s'.activeRequests

theorem Shrinks.trans {s t u : LangScheduler} (h : Shrinks s t) (h' : Shrinks t u) :
    Shrinks s u :=
  ⟨h'.within.trans h.within, h'.queue.trans h.queue, h'.limit.trans h.limit⟩

theorem Shrinks.size_le {s s' : LangScheduler} (h : Shrinks s s') :
    s'.activeRequests.size ≤ s.activeRequests.size :=
  size_le_of_keysWithin h.within

theorem Shrinks.queueOk {s s' : LangScheduler} (h : Shrinks s s') (Q : QueueOk s) :
    QueueOk s' := by
  refine ⟨by rw [h.queue]; exact Q.sorted, fun id hid => ?_⟩
  rw [h.queue]
  exact Q.admitted id (h.within id hid)

theorem SameBatch.refl (s : LangScheduler) : SameBatch s s := ⟨⟨.refl _, rfl, rfl⟩, .refl _⟩

theorem SameBatch.trans {s t u : LangScheduler} (h : SameBatch s t) (h' : SameBatch t u) :
    SameBatch s u :=
  ⟨h.toShrinks.trans h'.toShrinks, h.contains.trans h'.contains⟩

theorem SameBatch.size_eq {s s' : LangScheduler} (h : SameBatch s s') :
    s'.activeRequests.size = s.activeRequests.size :=
  Nat.le_antisymm h.size_le (size_le_of_keysWithin h.contains)

theorem markRunning_keys (active : TreeMap Nat LangRequest) (inputs : List LangInput) :
    KeysWithin (markRunning active inputs) active ∧
      KeysWithin active (markRunning active inputs) := by
  unfold markRunning
  induction inputs generalizing active with
  | nil => exact ⟨.refl _, .refl _⟩
  | cons i inputs ih =>
      have hmodify : ∀ k : Nat,
          (active.modify i.requestId fun r => { r with running := true })[k]?.isSome =
            active[k]?.isSome := by
        intro k
        rw [lookup_modify]
        split <;> simp
      obtain ⟨hin, hout⟩ := ih (active.modify i.requestId fun r => { r with running := true })
      refine ⟨fun k hk => ?_, fun k hk => hout k ?_⟩
      · rw [← hmodify k]
        exact hin k hk
      · rw [hmodify k]
        exact hk

theorem initInputsAndModel_sameBatch {s s' : LangScheduler} (h : s.initInputsAndModel = some s') :
    SameBatch s s' := by
  unfold initInputsAndModel at h
  dsimp only at h
  split at h
  · cases h
    exact .refl s
  · split at h
    · cases h
    · split at h
      · cases h
      · cases h
        obtain ⟨hin, hout⟩ := markRunning_keys s.activeRequests
          (collectInputs s.maxBatchSize s.activeRequests.toList [])
        exact ⟨⟨hin, rfl, rfl⟩, hout⟩

/-- The base scheduler admits into an empty batch only. -/
theorem cycle_batch {s s' : LangScheduler} (h : s.cycle = some s') (Q : QueueOk s) :
    QueueOk s' ∧ s'.maxBatchSize = s.maxBatchSize ∧
      (if s.activeRequests.isEmpty then
        0 < s.maxBatchSize → s'.activeRequests.size ≤ s.maxBatchSize
      else s'.activeRequests.size = s.activeRequests.size) := by
  let t : LangScheduler := { s with cycleCount := s.cycleCount + 1 }
  have Qt : QueueOk t := ⟨Q.sorted, Q.admitted⟩
  have hsame : ∀ u : LangScheduler,
      (if u.modelQueue.isEmpty && u.requestsInModel.isEmpty then u.initInputsAndModel
        else some u) = some s' → SameBatch u s' := by
    intro u hu
    split at hu
    · exact initInputsAndModel_sameBatch hu
    · cases hu
      exact .refl _
  unfold cycle at h
  dsimp only at h
  split at h
  · next hempty =>
      have hsame := hsame _ h
      refine ⟨hsame.queueOk (Qt.admitLoop _),
        hsame.limit.trans (admitLoop_frame _ t).2.1, ?_⟩
      rw [if_pos hempty]
      intro hpos
      rw [hsame.size_eq]
      refine admitLoop_size_le id s.requestQueue (s := t) ?_
      have hzero : s.activeRequests.size = 0 :=
        beq_iff_eq.mp (TreeMap.isEmpty_eq_size_eq_zero.symm.trans hempty)
      exact hzero.trans_lt hpos
  · next hactive =>
      have hsame := hsame _ h
      refine ⟨hsame.queueOk Qt, hsame.limit, ?_⟩
      rw [if_neg hactive]
      exact hsame.size_eq

/-- One request of a finished batch leaves, or keeps its entry. -/
theorem finishRequest_shrinks {s : LangScheduler} {id : Nat} {r : LangRequest}
    (hr : s.activeRequests[id]? = some r) : Shrinks s (s.finishRequest id r) := by
  refine ⟨?_, rfl, rfl⟩
  unfold finishRequest
  dsimp only
  generalize (if (!r.genPhase) = true then _ else _ : Nat) = newLength
  split
  · intro k hk
    rw [lookup_erase] at hk
    split at hk
    · cases hk
    · exact hk
  · exact (keysWithin_insert_old (by rw [hr]; rfl)).1

theorem finishRequests_shrinks {ids : List Nat} {s s' : LangScheduler}
    (h : finishRequests ids s = some s') : Shrinks s s' :=
  finishRequests_of_finishRequest (P := Shrinks s)
    (fun _ _ _ hr hs => hs.trans (finishRequest_shrinks hr)) h (SameBatch.refl s).toShrinks

theorem finishModel_shrinks {s s' : LangScheduler} {modelId : Nat}
    (h : s.finishModel modelId = some s') : Shrinks s s' := by
  unfold finishModel at h
  split at h
  · cases h
  · next t ht =>
      cases h
      have hs := finishRequests_shrinks ht
      exact ⟨hs.within, hs.queue, hs.limit⟩

end LangScheduler

namespace SpecDecodeScheduler

open LangScheduler

/-! ## 3. Issuing and completing -/

section Issue

variable {s s' : SpecDecodeScheduler} {req : LangRequest}

/-- What every issue does to the active requests: it sets the entry of its request. -/
theorem IssuesTask.sameBatch (h : IssuesTask s req s')
    (hact : s.activeRequests[req.requestId]?.isSome = true) :
    SameBatch s.toLangScheduler s'.toLangScheduler := by
  obtain ⟨s₁, req', model, seqLength, info, hprep, hlaunch⟩ := h
  unfold launch at hlaunch
  obtain ⟨⟨built, g⟩, _, rfl⟩ := Option.map_eq_some_iff.mp hlaunch
  obtain ⟨hreq, _⟩ := hprep.request
  have hkey : req'.requestId = req.requestId := by rw [hreq]
  rw [← hkey] at hact
  obtain ⟨hin, hout⟩ := keysWithin_insert_old
    (v := { req' with lastTaskType := info.taskType, running := true }) hact
  rw [hprep.frame]
  exact ⟨⟨hin, rfl, rfl⟩, hout⟩

theorem planRound_sameBatch (s : SpecDecodeScheduler)
    (hact : s.activeRequests[req.requestId]?.isSome = true) :
    SameBatch s.toLangScheduler (s.planRound req).2.toLangScheduler := by
  obtain ⟨ssrc, deferred, h⟩ := s.planRound_eq req
  rw [h]
  obtain ⟨hin, hout⟩ := keysWithin_insert_old (v := s.plannedRequest req) hact
  exact ⟨⟨hin, rfl, rfl⟩, hout⟩

/-- What a request is issued leaves the set of active requests alone. -/
theorem issuePhase_sameBatch {issued : Bool} (h : s.issuePhase req = some (s', issued))
    (hact : s.activeRequests[req.requestId]?.isSome = true) :
    SameBatch s.toLangScheduler s'.toLangScheduler := by
  rcases issuePhase_cases h with ⟨_, _, rfl⟩ | ⟨_, _, _, htask⟩ | ⟨_, _, htask⟩
  · exact .refl _
  · exact htask.sameBatch hact
  · have hplan := s.planRound_sameBatch hact
    exact hplan.trans (htask.sameBatch (hplan.contains _ hact))

theorem issueLoop_sameBatch {entries : List (Nat × LangRequest)}
    (hentries : ∀ p ∈ entries, s.activeRequests[p.2.requestId]?.isSome = true)
    (h : issueLoop entries s = some s') : SameBatch s.toLangScheduler s'.toLangScheduler := by
  refine issueLoop_of_issuePhase
    (P := fun t => SameBatch s.toLangScheduler t.toLangScheduler) (fun t req ht => ?_)
    (fun p hp t t' _ ht hphase => ?_) h (.refl _)
  · unfold unstall
    split <;> exact ht
  · exact ht.trans (issuePhase_sameBatch hphase (ht.contains _ (hentries p hp)))

end Issue

/-- The calls other than `cycle` admit nothing. -/
theorem step_shrinks {s s' : SpecDecodeScheduler} {a : Act} (hs : machine.step s a = some s')
    (hcycle : a ≠ .cycle)
    (hkeyed : ∀ (mid : Nat) (info : ModelMeta) (req : LangRequest), s.modelMeta[mid]? = some info →
      s.activeRequests[info.requestId]? = some req → info.requestId = req.requestId) :
    Shrinks s.toLangScheduler s'.toLangScheduler := by
  cases a with
  | cycle => exact absurd rfl hcycle
  | popModel =>
      obtain ⟨⟨model, t⟩, hpop, rfl⟩ := Option.map_eq_some_iff.mp hs
      unfold popModel LangScheduler.popModel at hpop
      obtain ⟨⟨m, base⟩, hbase, heq⟩ := Option.map_eq_some_iff.mp hpop
      cases heq
      split at hbase
      · cases hbase
      · cases hbase
        exact ⟨.refl _, rfl, rfl⟩
  | finishModel modelId =>
      unfold machine SpecDecodeScheduler.step finishModel at hs
      dsimp only at hs
      cases hinfo : s.modelMeta[modelId]? with
      | none =>
          rw [hinfo] at hs
          obtain ⟨base, hbase, rfl⟩ := Option.map_eq_some_iff.mp hs
          exact finishModel_shrinks hbase
      | some info =>
          rw [hinfo] at hs
          dsimp only at hs
          cases hact : s.activeRequests[info.requestId]? with
          | none =>
              rw [hact] at hs
              cases hs
              exact ⟨.refl _, rfl, rfl⟩
          | some req =>
              rw [hact] at hs
              cases hs
              have hid := hkeyed modelId info req hinfo hact
              obtain ⟨_, _, _, _, _, _, _, _, _, _, _, _, _, hframe⟩ :=
                s.completed_frame modelId req info
              have hlimit : (s.completed modelId req info).2.maxBatchSize = s.maxBatchSize := by
                rw [hframe]
              refine ⟨fun k hk => ?_, s.completed_requestQueue modelId req info, hlimit⟩
              have hlookup := s.completed_activeRequests modelId req info hid (hid ▸ hact) k
              change (s.completed modelId req info).2.activeRequests[k]?.isSome = true at hk
              rw [hlookup] at hk
              split at hk
              · next heq =>
                  rw [heq, ← hid, hact]
                  rfl
              · exact hk
  | ssrcBypass cid req =>
      unfold machine SpecDecodeScheduler.step at hs
      dsimp only at hs
      split at hs <;> cases hs <;> exact ⟨.refl _, rfl, rfl⟩
  | npuProgress npuCycle | dramPush cid req npuCycle | aauBypass cid req | drawId
  | drawAddress size =>
      cases hs
      exact ⟨.refl _, rfl, rfl⟩

/-! ## 4. The bound over a run -/

/-- The call is a `cycle` that finds the batch exactly full and the next request arrived (the clock
    steps before the admission). -/
def AdmitsPastFull (s : SpecDecodeScheduler) (a : Act) : Prop :=
  a = .cycle ∧ s.activeRequests.size = s.maxBatchSize ∧
    ∃ r, s.requestQueue.head? = some r ∧ r.requestTime ≤ s.cycleCount + 1

/-- The clock step and the admission keep the order of the queue and the bound. -/
theorem tickAndAdmit_queueOk {s : SpecDecodeScheduler} (Q : QueueOk s.toLangScheduler) :
    QueueOk s.tickAndAdmit.toLangScheduler ∧ s.tickAndAdmit.maxBatchSize = s.maxBatchSize := by
  let t : LangScheduler := { s.toLangScheduler with cycleCount := s.cycleCount + 1 }
  have Qt : QueueOk t := ⟨Q.sorted, Q.admitted⟩
  unfold tickAndAdmit
  dsimp only
  split
  · exact ⟨Qt.admitLoop _, (admitLoop_frame _ t).2.1⟩
  · exact ⟨Qt, rfl⟩

/-- **The admission of a call**: entered within the bound it leaves within the bound, unless it
    admits past a full batch. -/
theorem tickAndAdmit_size {s : SpecDecodeScheduler} (Q : QueueOk s.toLangScheduler)
    (hpos : 0 < s.maxBatchSize) (hle : s.activeRequests.size ≤ s.maxBatchSize) :
    (s.AdmitsPastFull .cycle → s.tickAndAdmit.activeRequests.size = s.maxBatchSize + 1) ∧
      (¬ s.AdmitsPastFull .cycle → s.tickAndAdmit.activeRequests.size ≤ s.maxBatchSize) := by
  let t : LangScheduler := { s.toLangScheduler with cycleCount := s.cycleCount + 1 }
  have Qt : QueueOk t := ⟨Q.sorted, Q.admitted⟩
  have hadmitted : s.tickAndAdmit.toLangScheduler =
      t.admitLoop (prepareRequest s.targetModel.isSome) t.requestQueue := by
    unfold tickAndAdmit
    dsimp only
    rw [if_pos (.inl hle)]
  rw [hadmitted]
  refine ⟨?_, fun hno => ?_⟩
  · rintro ⟨_, hfull, harrived⟩
    rw [admitLoop_size_full _ Qt hpos hfull, if_pos harrived]
  · rcases Nat.lt_or_ge s.activeRequests.size s.maxBatchSize with hlt | hge
    · exact admitLoop_size_le _ _ (s := t) hlt
    · have hfull : t.activeRequests.size = t.maxBatchSize := Nat.le_antisymm hle hge
      have hnone : ¬ ∃ r, t.requestQueue.head? = some r ∧ r.requestTime ≤ t.cycleCount := by
        rintro ⟨r, hr, ht⟩
        exact hno ⟨rfl, hfull, r, hr, ht⟩
      rw [admitLoop_size_full _ Qt hpos hfull, if_neg hnone]

/-- What `cycle` does after the admission: nothing to the set of active requests, unless the base
    scheduler finds none and admits on its own. -/
theorem cycle_size {s s' : SpecDecodeScheduler} (hs : s.cycle = some s')
    (Q : QueueOk s.tickAndAdmit.toLangScheduler)
    (hkeyed : s.targetModel.isSome = true → ∀ (id : Nat) (req : LangRequest),
      s.tickAndAdmit.activeRequests[id]? = some req → req.requestId = id) :
    QueueOk s'.toLangScheduler ∧ s'.maxBatchSize = s.tickAndAdmit.maxBatchSize ∧
      (if s.tickAndAdmit.activeRequests.isEmpty then
        0 < s.tickAndAdmit.maxBatchSize → s'.activeRequests.size ≤ s.tickAndAdmit.maxBatchSize
      else s'.activeRequests.size = s.tickAndAdmit.activeRequests.size) := by
  have htarget : s.tickAndAdmit.targetModel = s.targetModel := by
    unfold tickAndAdmit
    dsimp only
    split <;> rfl
  unfold cycle at hs
  dsimp only at hs
  generalize s.tickAndAdmit = t at *
  have hsame : SameBatch t.toLangScheduler s'.toLangScheduler →
      QueueOk s'.toLangScheduler ∧ s'.maxBatchSize = t.maxBatchSize ∧
        (if t.activeRequests.isEmpty then
          0 < t.maxBatchSize → s'.activeRequests.size ≤ t.maxBatchSize
        else s'.activeRequests.size = t.activeRequests.size) := by
    intro hsame
    refine ⟨hsame.queueOk Q, hsame.limit, ?_⟩
    rw [hsame.size_eq]
    split
    · next hempty =>
        intro _
        have hzero : t.activeRequests.size = 0 :=
          beq_iff_eq.mp (TreeMap.isEmpty_eq_size_eq_zero.symm.trans hempty)
        rw [hzero]
        exact Nat.zero_le _
    · rfl
  cases ht : s.targetModel with
  | none =>
      rw [htarget, ht] at hs
      simp only [Option.isNone_none, if_true] at hs
      split at hs
      · obtain ⟨base, hbase, rfl⟩ := Option.map_eq_some_iff.mp hs
        exact cycle_batch hbase Q
      · cases hs
        exact hsame (.refl _)
  | some target =>
      rw [htarget, ht] at hs
      simp only [Option.isNone_some, Bool.false_eq_true, if_false] at hs
      refine hsame (issueLoop_sameBatch (fun p hp => ?_) hs)
      have hact := TreeMap.mem_toList_iff_getElem?_eq_some.mp hp
      rw [hkeyed (by rw [ht]; rfl) p.1 p.2 hact, hact]
      rfl

end SpecDecodeScheduler

namespace Setup

open SpecDecodeScheduler LangScheduler

variable {c : Setup} {s s' : SpecDecodeScheduler} {h : List Event} {a : Act}

/-- The requests a call finds after its admission are under their own ids. -/
theorem Reach.tick_keyed (hr : c.Reach s h) (ht : s.targetModel.isSome = true) (id : Nat)
    (req : LangRequest) (hact : s.tickAndAdmit.activeRequests[id]? = some req) :
    req.requestId = id := by
  have hc : c.targetModel.isSome = true := by
    cases hcase : c.targetModel.isSome with
    | true => rfl
    | false =>
        rw [(hr.fallback hcase).target] at ht
        cases ht
  have I : ProtocolOk s.tickAndAdmit := (hr.inv hc).1.chain s.tickAndAdmit_chain
  exact (I.requests id req hact).keyed

/-- A recorded model belongs to a request under its own id. -/
theorem Reach.recorded_keyed (hr : c.Reach s h) (mid : Nat) (info : ModelMeta)
    (req : LangRequest) (hinfo : s.modelMeta[mid]? = some info)
    (hact : s.activeRequests[info.requestId]? = some req) : info.requestId = req.requestId := by
  cases hc : c.targetModel.isSome with
  | true => exact (((hr.inv hc).1.requests _ _ hact).keyed).symm
  | false =>
      rw [(hr.fallback hc).noModel] at hinfo
      cases hinfo

/-- **The queue and the bound over a run.** -/
theorem Reach.queueOk (hr : c.Reach s h) :
    QueueOk s.toLangScheduler ∧ s.maxBatchSize = c.schedulerConfig.maxBatchSize.getD 0 := by
  obtain ⟨s₀, hstart, hexec⟩ := hr
  refine (hexec.invariant (P := fun s h => c.Reach s h ∧ QueueOk s.toLangScheduler ∧
    s.maxBatchSize = c.schedulerConfig.maxBatchSize.getD 0) ?_ ?_).2
  · have F := Setup.start_fresh hstart
    refine ⟨⟨s₀, hstart, .start⟩, ⟨?_, fun id hid => ?_⟩, ?_⟩
    · rw [F.queue]
      exact (parseRows_spec c.rows 0 0).2
    · rw [F.noActive] at hid
      cases hid
    · exact Setup.start_maxBatchSize hstart
  · rintro s h a s' ⟨hr, Q, hlimit⟩ hs
    refine ⟨hr.exec (.one hs), ?_⟩
    by_cases ha : a = .cycle
    · subst ha
      obtain ⟨Qt, hlimit'⟩ := tickAndAdmit_queueOk Q
      obtain ⟨Q', hsame, _⟩ := cycle_size hs Qt hr.tick_keyed
      exact ⟨Q', hsame.trans (hlimit'.trans hlimit)⟩
    · have hshrinks := step_shrinks hs ha hr.recorded_keyed
      exact ⟨hshrinks.queueOk Q, hshrinks.limit.trans hlimit⟩

/-- **One call keeps the bound exactly when it does not admit past it.** -/
theorem Reach.step_size (hr : c.Reach s h) (hs : machine.step s a = some s')
    (hpos : 0 < s.maxBatchSize) (hle : s.activeRequests.size ≤ s.maxBatchSize) :
    s'.activeRequests.size ≤ s.maxBatchSize ↔ ¬ s.AdmitsPastFull a := by
  by_cases ha : a = .cycle
  · subst ha
    have Q := hr.queueOk.1
    obtain ⟨Qt, hlimit⟩ := tickAndAdmit_queueOk Q
    obtain ⟨hpast, hwithin⟩ := tickAndAdmit_size Q hpos hle
    obtain ⟨_, _, hsize⟩ := cycle_size hs Qt hr.tick_keyed
    rw [hlimit] at hsize
    constructor
    · intro hbound hadmits
      have htick := hpast hadmits
      rw [if_neg fun hempty => ?_] at hsize
      · omega
      · have hzero : s.tickAndAdmit.activeRequests.size = 0 :=
          beq_iff_eq.mp (TreeMap.isEmpty_eq_size_eq_zero.symm.trans hempty)
        omega
    · intro hno
      have htick := hwithin hno
      split at hsize
      · exact hsize hpos
      · omega
  · have hshrinks := step_shrinks hs ha hr.recorded_keyed
    exact iff_of_true (hshrinks.size_le.trans hle) fun hadmits => ha hadmits.1

end Setup

section

open SpecDecodeScheduler

/-- **The bound over a run**: every state the calls pass through is within the bound exactly when no
    call finds the batch exactly full and the next request arrived. -/
theorem active_le_maxBatch {c : Setup} {max : Nat} (hmax : c.schedulerConfig.maxBatchSize = some max)
    (hpos : 0 < max) {as : List Act} (hrun : (c.run as).isSome = true) :
    (∀ bs, bs <+: as → ∀ s h, c.run bs = some (s, h) → s.activeRequests.size ≤ max) ↔
      ∀ bs a, bs ++ [a] <+: as → ∀ s h, c.run bs = some (s, h) → ¬ s.AdmitsPastFull a := by
  have hlimit : ∀ {bs s h}, c.run bs = some (s, h) → s.maxBatchSize = max := by
    intro bs s h hb
    rw [(Setup.reach_of_run hb).queueOk.2, hmax]
    rfl
  -- the step from one state of the run to the next
  have hnext : ∀ {bs a s h s' h'}, c.run bs = some (s, h) → c.run (bs ++ [a]) = some (s', h') →
      s.activeRequests.size ≤ max → (s'.activeRequests.size ≤ max ↔ ¬ s.AdmitsPastFull a) := by
    intro bs a s h s' h' hb hb' hle
    rw [c.run_snoc, hb, Option.bind_some] at hb'
    obtain ⟨t, hs, heq⟩ := Option.map_eq_some_iff.mp hb'
    cases heq
    have hstep := (Setup.reach_of_run hb).step_size hs (by rw [hlimit hb]; exact hpos)
      (by rw [hlimit hb]; exact hle)
    rwa [hlimit hb] at hstep
  constructor
  · intro hbound bs a hba s h hb
    obtain ⟨s', h', hb'⟩ := Setup.run_prefix hba hrun
    have hbs : bs <+: as := (List.prefix_append bs [a]).trans hba
    exact (hnext hb hb' (hbound bs hbs s h hb)).mp (hbound _ hba s' h' hb')
  · intro hno bs
    induction bs using List.reverseRecOn with
    | nil =>
        intro _ s h hb
        obtain ⟨s₀, hstart, heq⟩ := Option.bind_eq_some_iff.mp hb
        cases heq
        rw [(Setup.start_fresh hstart).active]
        exact Nat.zero_le _
    | append_singleton bs a ih =>
        intro hba s' h' hb'
        have hbs : bs <+: as := (List.prefix_append bs [a]).trans hba
        obtain ⟨s, h, hb⟩ := Setup.run_prefix hbs hrun
        exact (hnext hb hb' (ih hbs s h hb)).mpr (hno bs a hba s h hb)

/-- Two requests at time 0 and a batch of one. -/
def batchOfOne : Setup :=
  { sampleSetup [⟨0, 4, 9, 1⟩, ⟨0, 4, 9, 1⟩] [] with schedulerConfig := { maxBatchSize := some 1 } }

/-- The first call admits one request, within the bound. -/
theorem active_le_maxBatch_sample : (batchOfOne.run [.cycle]).isSome = true ∧
    ∀ bs, bs <+: [.cycle] → ∀ s h, batchOfOne.run bs = some (s, h) → s.activeRequests.size ≤ 1 := by
  have hrun : (batchOfOne.run [.cycle]).isSome = true := by decide +kernel
  refine ⟨hrun, (active_le_maxBatch rfl Nat.one_pos hrun).mpr ?_⟩
  intro bs a hba s h hb
  obtain rfl : bs = [] := by
    have hlen := hba.length_le
    rw [List.length_append, List.length_singleton] at hlen
    exact List.length_eq_zero_iff.mp (Nat.le_zero.mp (Nat.le_of_succ_le_succ hlen))
  obtain ⟨s₀, hstart, heq⟩ := Option.bind_eq_some_iff.mp hb
  cases heq
  rintro ⟨_, hfull, _⟩
  rw [(Setup.start_fresh hstart).active, Setup.start_maxBatchSize hstart] at hfull
  exact absurd hfull (by decide)

/-- The second call finds the batch exactly full, and admits the second request. -/
theorem full_batch_admits : ¬ ∀ (c : Setup) (max : Nat),
    c.schedulerConfig.maxBatchSize = some max → 0 < max →
    ∀ s h, c.Reach s h → s.activeRequests.size ≤ max := by
  intro hclaim
  obtain ⟨s, h, hr, hfacts⟩ := Setup.exists_reach (c := batchOfOne) (l := [.cycle, .cycle])
    (p := fun r => decide (r.1.activeRequests.size = 2)) (by decide +kernel)
  have hle := hclaim batchOfOne 1 rfl Nat.one_pos s h hr
  have htwo : s.activeRequests.size = 2 := of_decide_eq_true hfacts
  omega

end

end Ahasd
