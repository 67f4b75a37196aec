/-
  File:      Ahasd/Scheduler/CacheLengths.lean
  Subject:   THE LENGTHS OF A REQUEST AND OF ITS KEY/VALUE CACHE over a run.

  * `LengthsOk`: the cache has a row for every token, the unverified drafts of the round included;
    `LengthsOk.move`: every move keeps it;
  * `BoundsOk`: no length passes the target, when every request generates a token at least; `Grows`:
    the committed length never shrinks;
  * `kv_cache_lengths`: both, for every run; `attended_length`: the rows attention is given, task by
    task.
-/
import Ahasd.Scheduler.Rounds

namespace Ahasd

open Std Transition OrderedMap

/-! ## 1. The rows of the cache -/

/-- The cache tensors of a new request, one key and one value tensor a layer. -/
theorem initCaches_rows (maxDims : List Nat) (rows width precision layers : Nat) (g : Globals) :
    let caches := (LangScheduler.initCaches maxDims [rows, width] precision layers g).1
    (caches.1.length = layers ∧ ∀ t ∈ caches.1, t.dims[0]? = some rows) ∧
      (caches.2.length = layers ∧ ∀ t ∈ caches.2, t.dims[0]? = some rows) := by
  induction layers generalizing g with
  | zero =>
      exact ⟨⟨rfl, fun _ h => absurd h List.not_mem_nil⟩, rfl, fun _ h => absurd h List.not_mem_nil⟩
  | succ layers ih =>
      unfold LangScheduler.initCaches
      dsimp only
      obtain ⟨⟨hk, hks⟩, hv, hvs⟩ := ih
        (Tensor.create (Tensor.create g maxDims precision true).2 maxDims precision true).2
      refine ⟨⟨congrArg (· + 1) hk, fun t ht => ?_⟩, congrArg (· + 1) hv, fun t ht => ?_⟩
      · rcases List.mem_cons.mp ht with rfl | ht
        · rfl
        · exact hks t ht
      · rcases List.mem_cons.mp ht with rfl | ht
        · rfl
        · exact hvs t ht

/-- **A new request's cache has its cached tokens as rows.** -/
theorem LangScheduler.initRequest_cacheRows (s : LangScheduler) (r : LangRequest) :
    (s.initRequest r).1.CacheRows s.numSimLayers r.currentLength := by
  obtain ⟨⟨hk, hks⟩, hv, hvs⟩ := initCaches_rows s.maxDims r.currentLength s.cacheDim
    s.config.precision s.numSimLayers s.globals
  exact ⟨hk, hv, hks, hvs⟩

/-- The drafts of the open round that are in the cache. -/
def LangRequest.openDrafts (r : LangRequest) : Nat :=
  match r.specPhase with
  | .drafting => r.draftedInRound
  | .awaitVerify => r.draftedInRound
  | _ => 0

theorem LangRequest.openDrafts_eq {r : LangRequest} (h : r.InRound) :
    r.openDrafts = r.draftedInRound := by
  unfold openDrafts
  rcases h with h | h <;> rw [h]

theorem LangRequest.openDrafts_zero {r : LangRequest} (h : ¬ r.InRound) : r.openDrafts = 0 := by
  unfold openDrafts
  unfold InRound at h
  cases hp : r.specPhase <;> simp_all

namespace SpecDecodeScheduler

/-- What a verification makes of the committed length and of the cache. -/
theorem applyVerifyResult_length (s : SpecDecodeScheduler) (req : LangRequest) (accepted : Nat) :
    (s.applyVerifyResult req accepted).currentLength =
      min req.targetLength (req.currentLength + accepted) := by
  unfold applyVerifyResult
  dsimp only
  split <;> rfl

theorem applyVerifyResult_cacheRows (s : SpecDecodeScheduler) {req : LangRequest} (accepted : Nat)
    {layers rows : Nat} (h : req.CacheRows layers rows) :
    (s.applyVerifyResult req accepted).CacheRows layers
      (s.applyVerifyResult req accepted).currentLength := by
  rw [applyVerifyResult_length]
  have hresize := LangRequest.resizeCache_cacheRows
    (min req.targetLength (req.currentLength + accepted)) s.cacheDim h
  unfold applyVerifyResult
  dsimp only
  split <;> exact ⟨hresize.keyLayers, hresize.valueLayers, hresize.keyRows, hresize.valueRows⟩

theorem draftedRequest_openDrafts (s : SpecDecodeScheduler) (req : LangRequest) :
    (s.draftedRequest req).openDrafts = req.draftedInRound + 1 :=
  LangRequest.openDrafts_eq (s.draftedRequest_inRound req)

/-- The cache of every request has a row for each committed token and each unverified draft, and the
    history counts these drafts. -/
structure LengthsOk (s : SpecDecodeScheduler) (h : List Event) : Prop where
  drafted : ∀ (id : Nat) (r : LangRequest), s.activeRequests[id]? = some r →
    unverifiedDrafts id h = r.openDrafts
  idle : ∀ id : Nat, s.activeRequests[id]? = none → unverifiedDrafts id h = 0
  caches : ∀ (id : Nat) (r : LangRequest), s.activeRequests[id]? = some r →
    r.CacheRows s.numSimLayers (r.currentLength + r.openDrafts)

/-- A finished draft opens one row more, a finished verification closes the round. -/
theorem TaskDone.openDrafts {s : SpecDecodeScheduler} {req r : LangRequest} {info : ModelMeta}
    {e : LangStepEvent} (htask : TaskDone s req info (some r)) (hty : e.taskType = info.taskType) :
    countDraft req.openDrafts e = r.openDrafts := by
  unfold countDraft
  rw [hty]
  cases htask with
  | prompt hty hphase hround =>
      rw [hty]
      exact LangRequest.openDrafts_zero (LangRequest.not_inRound (.inl hphase))
  | draft hty hphase hround hpos hlength hlt =>
      rw [hty, LangRequest.openDrafts_eq (.inl hphase), s.draftedRequest_openDrafts]
  | verify hty hphase hround hpos hlength hdrafted hplanned hnext =>
      rw [hty]
      exact (LangRequest.openDrafts_zero (LangRequest.not_inRound (.inr hnext))).symm
  | preVerify hty hphase hround hpos hdrafted hlength hdone => rw [hty]

/-- The cache after a finished task. -/
theorem TaskDone.cacheRows {s : SpecDecodeScheduler} {req r : LangRequest} {info : ModelMeta}
    (htask : TaskDone s req info (some r)) {layers : Nat}
    (hrows : req.CacheRows layers (req.currentLength + req.openDrafts)) :
    r.CacheRows layers (r.currentLength + r.openDrafts) := by
  cases htask with
  | prompt hty hphase hround =>
      have hresize := LangRequest.resizeCache_cacheRows (req.currentLength + req.promptLength)
        s.cacheDim hrows
      exact ⟨hresize.keyLayers, hresize.valueLayers, hresize.keyRows, hresize.valueRows⟩
  | draft hty hphase hround hpos hlength hlt =>
      have hresize := LangRequest.resizeCache_cacheRows
        (req.currentLength + req.draftedInRound + 1) s.cacheDim hrows
      rw [s.draftedRequest_openDrafts]
      exact ⟨hresize.keyLayers, hresize.valueLayers, hresize.keyRows, hresize.valueRows⟩
  | verify hty hphase hround hpos hlength hdrafted hplanned hnext =>
      rw [LangRequest.openDrafts_zero (LangRequest.not_inRound (.inr hnext)), Nat.add_zero]
      exact s.applyVerifyResult_cacheRows _ hrows
  | preVerify hty hphase hround hpos hdrafted hlength hdone => exact hrows

/-- **Every move keeps the lengths.** -/
theorem LengthsOk.move {s s' : SpecDecodeScheduler} {h e : List Event} (I : ProtocolOk s)
    (L : LengthsOk s h) (hm : Move s s' e) : LengthsOk s' (h ++ e) := by
  cases hm with
  | minor s' hm =>
      rw [List.append_nil]
      exact ⟨by rw [hm.active]; exact L.drafted, by rw [hm.active]; exact L.idle,
        by rw [hm.active, hm.layers]; exact L.caches⟩
  | admitOne r rest hq =>
      have hactive := s.admit_lookup r rest
      have hnone := I.admit_fresh hq
      rw [List.append_nil]
      refine ⟨fun id q hact => ?_, fun id hact => ?_, fun id q hact => ?_⟩
      · rw [hactive] at hact
        split at hact
        · next heq =>
            cases hact
            rw [heq]
            exact L.idle _ hnone
        · exact L.drafted id q hact
      · rw [hactive] at hact
        split at hact
        · cases hact
        · exact L.idle id hact
      · rw [hactive] at hact
        split at hact
        · cases hact
          obtain ⟨hk, hv, hks, hvs⟩ := s.toLangScheduler.initRequest_cacheRows r
          exact ⟨hk, hv, hks, hvs⟩
        · exact L.caches id q hact
  | plan req hact hrun hphase =>
      have hactive := s.planRound_lookup req
      obtain ⟨_, _, _, _, _, hlayers, _⟩ := s.planRound_frame req
      have hopen := LangRequest.openDrafts_zero (LangRequest.not_inRound (.inr hphase))
      refine ⟨fun id q hq => ?_, fun id hq => ?_, fun id q hq => ?_⟩
      · rw [unverifiedDrafts_planned]
        rw [hactive] at hq
        split at hq
        · next heq =>
            cases hq
            rw [heq, L.drafted _ req hact, hopen]
            rfl
        · exact L.drafted id q hq
      · rw [unverifiedDrafts_planned]
        rw [hactive] at hq
        split at hq
        · cases hq
        · exact L.idle id hq
      · rw [hlayers]
        rw [hactive] at hq
        split at hq
        · cases hq
          have hrows := L.caches _ req hact
          rw [hopen] at hrows
          exact ⟨hrows.keyLayers, hrows.valueLayers, hrows.keyRows, hrows.valueRows⟩
        · exact L.caches id q hq
  | issue s₁ req req' model seqLength info built g hact hrun hprep hgen =>
      have hlaunched := hprep.launched hgen
      obtain ⟨v, hactive⟩ := hlaunched.active
      refine ⟨fun id q hq => ?_, fun id hq => ?_, fun id q hq => ?_⟩
      · rw [unverifiedDrafts_issued]
        rw [hactive] at hq
        split at hq
        · next heq =>
            cases hq
            rw [heq]
            exact L.drafted _ req hact
        · exact L.drafted id q hq
      · rw [unverifiedDrafts_issued]
        rw [hactive] at hq
        split at hq
        · cases hq
        · exact L.idle id hq
      · rw [hlaunched.layers]
        rw [hactive] at hq
        split at hq
        · cases hq
          obtain ⟨hk, hv, hks, hvs⟩ := L.caches _ req hact
          exact ⟨hk, hv, hks, hvs⟩
        · exact L.caches id q hq
  | finish modelId info req hinfo hid hact htask =>
      have hactive := s.completed_activeRequests modelId req info hid hact
      obtain ⟨heid, hety, _⟩ := s.completed_event modelId req info
      have hlayers : (s.completed modelId req info).2.numSimLayers = s.numSimLayers := by
        obtain ⟨_, _, _, _, _, _, _, _, _, _, _, _, _, hframe⟩ :=
          s.completed_frame modelId req info
        rw [hframe]
      refine ⟨fun id q hq => ?_, fun id hq => ?_, fun id q hq => ?_⟩
      · rw [unverifiedDrafts_finished, heid]
        rw [hactive] at hq
        split at hq
        · next heq =>
            obtain ⟨r, hr, rfl⟩ := Option.map_eq_some_iff.mp hq
            rw [if_pos heq.symm, heq, L.drafted _ req hact]
            exact (hr ▸ htask).openDrafts hety
        · next hne =>
            rw [if_neg fun hc => hne hc.symm]
            exact L.drafted id q hq
      · rw [unverifiedDrafts_finished, heid]
        rw [hactive] at hq
        split at hq
        · next heq =>
            have hnone := Option.map_eq_none_iff.mp hq
            rw [hnone] at htask
            rw [if_pos heq.symm]
            cases htask with
            | retire hty =>
                unfold countDraft
                rw [hety, hty]
        · next hne =>
            rw [if_neg fun hc => hne hc.symm]
            exact L.idle id hq
      · rw [hlayers]
        rw [hactive] at hq
        split at hq
        · obtain ⟨r, hr, rfl⟩ := Option.map_eq_some_iff.mp hq
          obtain ⟨hk, hv, hks, hvs⟩ := (hr ▸ htask).cacheRows (L.caches _ req hact)
          exact ⟨hk, hv, hks, hvs⟩
        · exact L.caches id q hq

end SpecDecodeScheduler

open SpecDecodeScheduler in
theorem Setup.Reach.lengths {c : Setup} {s : SpecDecodeScheduler} {h : List Event}
    (ht : c.targetModel.isSome = true) (hr : c.Reach s h) : LengthsOk s h := by
  refine hr.induct ht ?_ fun s h s' e I _ L hm => L.move I hm
  intro s₀ F
  refine ⟨fun id r hact => ?_, fun id _ => rfl, fun id r hact => ?_⟩
  · rw [F.noActive] at hact
    cases hact
  · rw [F.noActive] at hact
    cases hact

/-! ## 2. The target bounds the lengths -/

/-- What is left of the request's target, phase by phase. -/
def LangRequest.Bounded (r : LangRequest) : Prop :=
  match r.specPhase with
  | .promptPending => r.currentLength + r.promptLength < r.targetLength
  | .draftRoundStart => r.currentLength < r.targetLength
  | .drafting => r.currentLength + r.plannedDraftLength ≤ r.targetLength
  | .awaitVerify => r.currentLength + r.plannedDraftLength ≤ r.targetLength
  | .done => True

namespace SpecDecodeScheduler

/-- Every active request is bounded. -/
def BoundsOk (s : SpecDecodeScheduler) : Prop :=
  ∀ (id : Nat) (r : LangRequest), s.activeRequests[id]? = some r → r.Bounded

/-- A finished task keeps its request bounded. -/
theorem TaskDone.bounded {s : SpecDecodeScheduler} {req r : LangRequest} {info : ModelMeta}
    (htask : TaskDone s req info (some r)) (hb : req.Bounded) : r.Bounded := by
  unfold LangRequest.Bounded at hb
  cases htask with
  | prompt hty hphase hround =>
      rw [hphase] at hb
      exact hb
  | draft hty hphase hround hpos hlength hlt =>
      rw [hphase] at hb
      unfold LangRequest.Bounded draftedRequest LangRequest.resizeCache
      dsimp only
      split
      · next heq => split at heq <;> cases heq
      · next heq => split at heq <;> cases heq
      · exact hb
      · exact hb
      · trivial
  | verify hty hphase hround hpos hlength hdrafted hplanned hnext =>
      unfold LangRequest.Bounded
      rw [hnext]
      dsimp only
      unfold applyVerifyResult at hnext ⊢
      dsimp only at hnext ⊢
      split at hnext
      · cases hnext
      · next hlt =>
          rw [if_neg hlt]
          exact Nat.lt_of_not_le hlt
  | preVerify hty hphase hround hpos hdrafted hlength hdone =>
      unfold LangRequest.Bounded
      rw [hphase] at hb ⊢
      exact hb

/-- **Every move keeps the bounds**, when every row generates a token. -/
theorem BoundsOk.move {c : Setup} {s s' : SpecDecodeScheduler} {e : List Event}
    (hgen : ∀ row ∈ c.rows, 1 ≤ row.generationLength) (C : Configured c s) (B : BoundsOk s)
    (hm : Move s s' e) : BoundsOk s' := by
  intro id q hq
  cases hm with
  | minor s' hm =>
      rw [hm.active] at hq
      exact B id q hq
  | admitOne r rest hqueue =>
      rw [s.admit_lookup r rest] at hq
      split at hq
      · cases hq
        obtain ⟨⟨row, hrow, hprompt, htarget, _⟩, row', hrow', hcached⟩ :=
          C.queued r (hqueue ▸ List.mem_cons_self)
        rw [hrow, Option.some.injEq] at hrow'
        subst hrow'
        have hpos := hgen row (List.mem_of_getElem? hrow)
        show r.currentLength + r.promptLength < r.targetLength
        rw [hcached, hprompt, htarget]
        unfold RequestRow.targetLength
        omega
      · exact B id q hq
  | plan req hact hrun hphase =>
      rw [s.planRound_lookup req] at hq
      split at hq
      · cases hq
        have hb := B _ req hact
        unfold LangRequest.Bounded at hb
        rw [hphase] at hb
        dsimp only at hb
        have hk := (s.pickDraftLength_bounds req).2
        show req.currentLength + (s.pickDraftLength req).1 ≤ req.targetLength
        omega
      · exact B id q hq
  | issue s₁ req req' model seqLength info built g hact hrun hprep hgen =>
      obtain ⟨v, hactive⟩ := (hprep.launched hgen).active
      rw [hactive] at hq
      split at hq
      · cases hq
        exact B _ req hact
      · exact B id q hq
  | finish modelId info req hinfo hid hact htask =>
      rw [s.completed_activeRequests modelId req info hid hact] at hq
      split at hq
      · obtain ⟨r, hr, rfl⟩ := Option.map_eq_some_iff.mp hq
        exact (hr ▸ htask).bounded (B _ req hact)
      · exact B id q hq

/-- From `s` to `s'` the committed length of a request does not shrink, and no id is used twice. -/
structure Grows (s s' : SpecDecodeScheduler) : Prop where
  admitted : ∀ id, s.Admitted id → s'.Admitted id
  lengths : ∀ (id : Nat) (r' : LangRequest), s.Admitted id → s'.activeRequests[id]? = some r' →
    ∃ r : LangRequest, s.activeRequests[id]? = some r ∧ r.currentLength ≤ r'.currentLength

theorem Grows.refl (s : SpecDecodeScheduler) : Grows s s :=
  ⟨fun _ h => h, fun _ r _ hr => ⟨r, hr, Nat.le_refl _⟩⟩

theorem Grows.trans {s t u : SpecDecodeScheduler} (h : Grows s t) (h' : Grows t u) :
    Grows s u := by
  refine ⟨fun id hid => h'.admitted id (h.admitted id hid), fun id r'' hid hr'' => ?_⟩
  obtain ⟨r', hr', hle'⟩ := h'.lengths id r'' (h.admitted id hid) hr''
  obtain ⟨r, hr, hle⟩ := h.lengths id r' hid hr'
  exact ⟨r, hr, hle.trans hle'⟩

/-- A finished task does not shrink its bounded request. -/
theorem TaskDone.grows {s : SpecDecodeScheduler} {req r : LangRequest} {info : ModelMeta}
    (htask : TaskDone s req info (some r)) (hb : req.Bounded) :
    req.currentLength ≤ r.currentLength := by
  cases htask with
  | prompt hty hphase hround => exact Nat.le_add_right _ _
  | draft hty hphase hround hpos hlength hlt => exact Nat.le_refl _
  | verify hty hphase hround hpos hlength hdrafted hplanned hnext =>
      unfold LangRequest.Bounded at hb
      rw [hphase] at hb
      dsimp only at hb
      rw [applyVerifyResult_length]
      omega
  | preVerify hty hphase hround hpos hdrafted hlength hdone => exact Nat.le_refl _

/-- **No move shrinks a request.** -/
theorem Grows.move {s s' : SpecDecodeScheduler} {e : List Event} (B : BoundsOk s)
    (hm : Move s s' e) : Grows s s' := by
  cases hm with
  | minor s' hm =>
      refine ⟨fun id hid => ?_, fun id r' _ hr' => ⟨r', by rw [← hm.active]; exact hr', Nat.le_refl _⟩⟩
      unfold Admitted
      rw [hm.queue]
      exact hid
  | admitOne r rest hqueue =>
      refine ⟨fun id hid q hq => hid q (hqueue ▸ List.mem_cons_of_mem r hq), fun id r' hid hr' => ?_⟩
      rw [s.admit_lookup r rest] at hr'
      split at hr'
      · next heq =>
          have hlt := hid r (hqueue ▸ List.mem_cons_self)
          omega
      · exact ⟨r', hr', Nat.le_refl _⟩
  | plan req hact hrun hphase =>
      obtain ⟨_, hqueue, _⟩ := s.planRound_frame req
      refine ⟨fun id hid => ?_, fun id r' _ hr' => ?_⟩
      · unfold Admitted
        rw [hqueue]
        exact hid
      · rw [s.planRound_lookup req] at hr'
        split at hr'
        · next heq =>
            cases hr'
            exact ⟨req, heq ▸ hact, Nat.le_refl _⟩
        · exact ⟨r', hr', Nat.le_refl _⟩
  | issue s₁ req req' model seqLength info built g hact hrun hprep hgen =>
      have L := hprep.launched hgen
      obtain ⟨v, hactive⟩ := L.active
      refine ⟨fun id hid => ?_, fun id r' _ hr' => ?_⟩
      · unfold Admitted
        rw [L.queue]
        exact hid
      · rw [hactive] at hr'
        split at hr'
        · next heq =>
            cases hr'
            exact ⟨req, heq ▸ hact, Nat.le_refl _⟩
        · exact ⟨r', hr', Nat.le_refl _⟩
  | finish modelId info req hinfo hid hact htask =>
      refine ⟨fun id hid => ?_, fun id r' _ hr' => ?_⟩
      · unfold Admitted
        rw [completed_requestQueue]
        exact hid
      · rw [s.completed_activeRequests modelId req info hid hact] at hr'
        split at hr'
        · next heq =>
            obtain ⟨r, hr, rfl⟩ := Option.map_eq_some_iff.mp hr'
            exact ⟨req, heq ▸ hact, (hr ▸ htask).grows (B _ req hact)⟩
        · exact ⟨r', hr', Nat.le_refl _⟩

end SpecDecodeScheduler

/-! ## 3. Every run -/

section

open SpecDecodeScheduler

variable {c : Setup} {s : SpecDecodeScheduler} {h : List Event}

theorem Setup.Reach.bounds (ht : c.targetModel.isSome = true)
    (hgen : ∀ row ∈ c.rows, 1 ≤ row.generationLength) (hr : c.Reach s h) : BoundsOk s := by
  refine hr.induct ht (P := fun s _ => BoundsOk s) (fun s₀ F id r hact => ?_)
    fun s h s' e _ C B hm => B.move hgen C hm
  rw [F.noActive] at hact
  cases hact

/-- The rows of a bounded request's cache stay within the target. -/
theorem LangRequest.Bounded.rows {r : LangRequest} (hb : r.Bounded) (hp : r.PhaseFacts) :
    r.currentLength + r.openDrafts ≤ r.targetLength := by
  unfold Bounded at hb
  unfold PhaseFacts at hp
  unfold openDrafts
  cases hphase : r.specPhase <;> rw [hphase] at hb hp <;> dsimp only at hb hp ⊢
  · omega
  · omega
  · omega
  · omega

/-- **With a target model attached and a token to generate for every request**, in every reachable
    state every key and value tensor of a request, one for each simulated layer, has as many rows as
    the request has committed tokens and unverified drafts (none outside a round), at most the
    target; and no run from there shrinks the committed length. -/
theorem kv_cache_lengths (ht : c.targetModel.isSome = true)
    (hgen : ∀ row ∈ c.rows, 1 ≤ row.generationLength) (hr : c.Reach s h) :
    (∀ (id : Nat) (r : LangRequest), s.activeRequests[id]? = some r →
      r.CacheRows c.draftModel.numSimLayers (r.currentLength + unverifiedDrafts id h) ∧
      (¬ r.InRound → unverifiedDrafts id h = 0) ∧
      r.currentLength + unverifiedDrafts id h ≤ r.targetLength) ∧
    ∀ s' h', Exec machine s s' h' → ∀ (id : Nat) (r r' : LangRequest),
      s.activeRequests[id]? = some r → s'.activeRequests[id]? = some r' →
      r.currentLength ≤ r'.currentLength := by
  obtain ⟨I, C⟩ := hr.inv ht
  have L := hr.lengths ht
  have B := hr.bounds ht hgen
  refine ⟨fun id r hact => ?_, fun s' h' hx id r r' hact hact' => ?_⟩
  · rw [L.drafted id r hact, ← C.layers]
    exact ⟨L.caches id r hact, LangRequest.openDrafts_zero,
      (B id r hact).rows (I.requests id r hact).phase⟩
  · have hgrows := exec_moves (P := fun t _ => BoundsOk t ∧ Grows s t)
      (fun t _ t' _ _ Ct hP hm => ⟨hP.1.move hgen Ct hm, hP.2.trans (.move hP.1 hm)⟩) I C
      ⟨B, .refl s⟩ hx
    obtain ⟨r₀, hr₀, hle⟩ := hgrows.2.2.2.lengths id r' (I.requests id r hact).admitted hact'
    rw [hact, Option.some.injEq] at hr₀
    rw [hr₀]
    exact hle

/-- Two drafts into a round of three: five committed tokens, seven rows. -/
theorem kv_cache_lengths_sample : ∃ s h,
    (sampleSetup [⟨0, 4, 6, 1⟩] [(⟨0, 1⟩, ⟨3, 0, 3⟩)]).Reach s h ∧ unverifiedDrafts 0 h = 2 ∧
      ∃ r : LangRequest, s.activeRequests[0]? = some r ∧ r.CacheRows 1 (r.currentLength + 2) := by
  obtain ⟨s, h, hr, hfacts⟩ := Setup.exists_reach
    (c := sampleSetup [⟨0, 4, 6, 1⟩] [(⟨0, 1⟩, ⟨3, 0, 3⟩)]) (l := finishing [2, 3, 4])
    (p := fun r => decide (unverifiedDrafts 0 r.2 = 2) && (r.1.activeRequests[0]?).isSome)
    (by decide +kernel)
  rw [Bool.and_eq_true] at hfacts
  have hdrafts : unverifiedDrafts 0 h = 2 := of_decide_eq_true hfacts.1
  obtain ⟨r, hact⟩ := Option.isSome_iff_exists.mp hfacts.2
  obtain ⟨hlengths, _⟩ := kv_cache_lengths rfl (by decide) hr
  obtain ⟨hrows, _, _⟩ := hlengths 0 r hact
  rw [hdrafts] at hrows
  exact ⟨s, h, hr, hdrafts, r, hact, hrows⟩

/-! ## 4. What attention is given -/

/-- The sequence a task attends over: the cached tokens and the prompt; the committed tokens and the
    drafts of the round up to this one; the committed tokens and the drafts that are verified. -/
def attendLength (row : RequestRow) (r : LangRequest) (drafted : Nat) (info : ModelMeta) : Nat :=
  match info.taskType with
  | .prompt => row.cachedLength + row.promptLength
  | .draft => r.currentLength + (drafted + 1)
  | .verify => r.currentLength + info.draftLengthAtIssue
  | .preVerify => r.currentLength + info.draftLengthAtIssue
  | .autoreg => r.currentLength + 1

/-- The rows of the outputs of a model of one request. -/
theorem LanguageModel.outputRows_generated {m : LanguageModel} {input : LangInput}
    {g g' : Globals} {built : Model} (hgen : m.generateModel [input] g = some (built, g'))
    (layers : Nat) {rows : Nat} (hk : ∀ t ∈ input.keyCache, t.dims[0]? = some rows)
    (hv : ∀ t ∈ input.valueCache, t.dims[0]? = some rows)
    (hlayers : input.keyCache.length = layers) (hlayers' : input.valueCache.length = layers) :
    (KVCacheConcat.outputRows built).length = m.numSimLayers ∧
      ∀ out ∈ KVCacheConcat.outputRows built,
        out = (some (rows + input.seqLength), some (rows + input.seqLength)) := by
  obtain ⟨_, _, hreqs, hkeys, hvalues⟩ := generateModel_spec hgen
  have henough : m.numSimLayers ≤ input.keyCache.length ∧
      m.numSimLayers ≤ input.valueCache.length := by
    unfold generateModel at hgen
    split at hgen
    · next hall => simpa using hall
    · cases hgen
  have hload : ∀ cache : List Tensor, (∀ t ∈ cache, t.dims[0]? = some rows) →
      ∀ t ∈ m.loadCache cache,
        (KVCacheConcat.outputDims t.dims input.seqLength)[0]? = some (rows + input.seqLength) := by
    intro cache hcache t ht
    obtain ⟨t', ht', rfl⟩ := List.mem_map.mp ht
    unfold KVCacheConcat.outputDims
    rw [Tensor.setProduced_dims, List.getElem?_modify_eq, hcache t' (List.mem_of_mem_take ht')]
    rfl
  have houts : KVCacheConcat.outputRows built =
      ((m.loadCache input.keyCache).zip (m.loadCache input.valueCache)).map fun kv =>
        ((KVCacheConcat.outputDims kv.1.dims input.seqLength)[0]?,
          (KVCacheConcat.outputDims kv.2.dims input.seqLength)[0]?) := by
    unfold KVCacheConcat.outputRows
    rw [hreqs, hkeys, hvalues]
    rfl
  rw [houts]
  refine ⟨?_, fun out hout => ?_⟩
  · unfold loadCache
    simp only [List.length_map, List.length_zip, List.length_take]
    omega
  · obtain ⟨⟨key, value⟩, hmem, rfl⟩ := List.mem_map.mp hout
    obtain ⟨hkey, hvalue⟩ := List.of_mem_zip hmem
    rw [hload _ hk key hkey, hload _ hv value hvalue]

/-- The model of an issue is one of the registered models. -/
theorem SpecDecodeScheduler.Prepared.model_cases {t s₁ : SpecDecodeScheduler}
    {req req' : LangRequest} {model : LanguageModel} {seqLength : Nat} {info : ModelMeta}
    (hprep : Prepared t req s₁ req' model seqLength info) (C : Configured c t) :
    model = c.draftModel ∨ c.targetModel = some model := by
  have htarget : t.targetOrDraft.1 = c.draftModel ∨ c.targetModel = some t.targetOrDraft.1 := by
    unfold targetOrDraft
    rw [C.target]
    cases hc : c.targetModel with
    | none => exact .inl C.draft
    | some target => exact .inr rfl
  cases hprep with
  | prompt h => exact htarget
  | draft h => exact .inl C.draft
  | verify h hpv => exact htarget
  | preVerify h hpv => exact htarget

/-- **The rows attention is given are those it must attend over exactly for the prompt and the
    drafts**: a verification finds the rows of its drafts in the cache and adds them once more. -/
theorem attended_length {a : Act} {s' : SpecDecodeScheduler} {built : Model} {info : ModelMeta}
    (hr : c.Reach s h) (hs : machine.step s a = some s')
    (hi : .issued built info ∈ machine.obs s a s') :
    ∃ (r : LangRequest) (row : RequestRow) (m : LanguageModel),
      s'.activeRequests[info.requestId]? = some r ∧ c.rows[info.requestId]? = some row ∧
      (m = c.draftModel ∨ c.targetModel = some m) ∧
      (KVCacheConcat.outputRows built).length = m.numSimLayers ∧
      ∀ out ∈ KVCacheConcat.outputRows built,
        (out = (some (attendLength row r (unverifiedDrafts info.requestId h) info),
            some (attendLength row r (unverifiedDrafts info.requestId h) info)) ↔
          info.taskType = .prompt ∨ info.taskType = .draft) := by
  have ht := (hr.exec (.one hs)).speculative (List.mem_append_right h hi) nofun
  obtain ⟨t, I, C, L, hm⟩ := hr.issued ht (fun s h s' e I _ L hm => LengthsOk.move I L hm)
    (hr.lengths ht) hs hi
  cases hm with
  | issue s₁ req req' model seqLength info built g hact hrun hprep hgen =>
      have hid : info.requestId = req.requestId := hprep.request.2
      obtain ⟨v, hactive⟩ := (hprep.launched hgen).active
      obtain ⟨row, hrow, hprompt, _, hcached⟩ := C.active _ req hact
      have hdrafts := L.drafted _ req hact
      rw [unverifiedDrafts_plannedBy, ← hid] at hdrafts
      have hrows := L.caches _ req hact
      have hphase := (I.requests _ _ hact).phase
      have hinput : (modelInput req' info.taskType seqLength).keyCache = req.keyCache ∧
          (modelInput req' info.taskType seqLength).valueCache = req.valueCache := by
        rw [hprep.request.1]
        exact ⟨rfl, rfl⟩
      obtain ⟨hlayers, houts⟩ := LanguageModel.outputRows_generated hgen
        t.numSimLayers
        (by rw [hinput.1]; exact hrows.keyRows) (by rw [hinput.2]; exact hrows.valueRows)
        (by rw [hinput.1]; exact hrows.keyLayers) (by rw [hinput.2]; exact hrows.valueLayers)
      refine ⟨_, row, model, by rw [hactive, if_pos hid], hid ▸ hrow, hprep.model_cases C,
        hlayers, fun out hout => ?_⟩
      rw [houts out hout, hdrafts]
      unfold LangRequest.PhaseFacts at hphase
      unfold attendLength LangRequest.openDrafts
      cases hprep with
      | prompt h =>
          have hlength := hcached h
          simp only [h, modelInput]
          simp [hlength, hprompt]
      | draft h =>
          simp only [h, modelInput]
          simp [Nat.add_assoc]
      | verify h hpv =>
          simp only [h] at hphase
          simp only [h, modelInput]
          simp
          omega
      | preVerify h hpv =>
          simp only [h] at hphase
          simp only [h, modelInput]
          simp
          omega

/-- The second draft of the round: two rows more than the committed tokens. -/
theorem attended_length_sample : ∃ s h s' built info,
    (sampleSetup [⟨0, 4, 6, 1⟩] [(⟨0, 1⟩, ⟨3, 0, 3⟩)]).Reach s h ∧
      machine.step s .cycle = some s' ∧ .issued built info ∈ machine.obs s .cycle s' ∧
      info.taskType = .draft ∧ ∃ (r : LangRequest) (row : RequestRow),
        s'.activeRequests[info.requestId]? = some r ∧
        ∀ out ∈ KVCacheConcat.outputRows built,
          out = (some (attendLength row r (unverifiedDrafts info.requestId h) info),
            some (attendLength row r (unverifiedDrafts info.requestId h) info)) := by
  obtain ⟨s, h, s', hr, hs, hfacts⟩ := Setup.exists_step
    (c := sampleSetup [⟨0, 4, 6, 1⟩] [(⟨0, 1⟩, ⟨3, 0, 3⟩)]) (l := finishing [2, 3]) (a := .cycle)
    (p := fun s _ s' => (machine.obs s .cycle s').any <|
      Event.issuedWith fun _ info => info.taskType = .draft) (by decide +kernel)
  obtain ⟨built, info, hx, hdraft⟩ := Event.exists_issued hfacts
  have hty : info.taskType = .draft := of_decide_eq_true hdraft
  obtain ⟨r, row, _, hact, _, _, _, hrows⟩ := attended_length hr hs hx
  exact ⟨s, h, s', built, info, hr, hs, hx, hty, r, row, hact,
    fun out hout => (hrows out hout).mpr (.inr hty)⟩

/-- The verification of three drafts is given six rows more than the committed tokens. -/
theorem verify_attends_drafts_twice : ¬ ∀ s h s' built info (r : LangRequest) (row : RequestRow),
    (sampleSetup [⟨0, 4, 6, 1⟩] [(⟨0, 1⟩, ⟨3, 0, 3⟩)]).Reach s h →
    machine.step s .cycle = some s' → .issued built info ∈ machine.obs s .cycle s' →
    s'.activeRequests[info.requestId]? = some r →
    (sampleSetup [⟨0, 4, 6, 1⟩] []).rows[info.requestId]? = some row →
    ∀ out ∈ KVCacheConcat.outputRows built,
      out = (some (attendLength row r (unverifiedDrafts info.requestId h) info),
        some (attendLength row r (unverifiedDrafts info.requestId h) info)) := by
  intro hclaim
  obtain ⟨s, h, s', hr, hs, hfacts⟩ := Setup.exists_step
    (c := sampleSetup [⟨0, 4, 6, 1⟩] [(⟨0, 1⟩, ⟨3, 0, 3⟩)]) (l := finishing [2, 3, 4, 5])
    (a := .cycle)
    (p := fun s _ s' => (machine.obs s .cycle s').any <| Event.issuedWith fun built info =>
      decide (info.requestId = 0 ∧ info.taskType = .verify ∧ info.draftLengthAtIssue = 3) &&
        (KVCacheConcat.outputRows built).contains (some 11, some 11) &&
        (s'.activeRequests[0]?).any (·.currentLength = 5)) (by decide +kernel)
  obtain ⟨built, info, hx, hverify⟩ := Event.exists_issued hfacts
  rw [Bool.and_eq_true, Bool.and_eq_true] at hverify
  obtain ⟨⟨hinfo, hout⟩, hcurrent⟩ := hverify
  obtain ⟨hid, hty, hk⟩ := of_decide_eq_true hinfo
  obtain ⟨r, hact, hlength⟩ := (Option.any_eq_true _ _).mp hcurrent
  have hrow := hclaim s h s' built info r ⟨0, 4, 6, 1⟩ hr hs hx (by rw [hid]; exact hact)
    (by rw [hid]; rfl) _ (List.contains_iff_mem.mp hout)
  unfold attendLength at hrow
  rw [hty, hk, of_decide_eq_true hlength] at hrow
  cases hrow

end

end Ahasd
