/-
  File:      Ahasd/Scheduler/Regions.lean
  Subject:   THE SPECULATIVE BYTES OF A RUN: VSKM's counter is the sum of the open regions, its peak
             the largest value the counter had.

  `begin_round` and `reset_request` forget the region of their request without a word to the
  counter. That loses nothing, since only requests inside a round have an open region.

  * `RegionsOk`: the counter is accounted for, and open regions belong to requests inside a round;
    `RegionsOk.move`: every move keeps this;
  * `step_follows`: the peak follows the counter, call by call;
  * `speculative_bytes`: both, for every run, with or without a target model.
-/
import Mathlib.Order.Bounds.Basic
import Ahasd.Scheduler.Rounds

namespace Ahasd

open Std Transition OrderedMap

namespace SpecDecodeScheduler

/-! ## 1. Who has an open region -/

/-- **The counter is the sum of the regions, and only requests inside a round have one.** -/
structure RegionsOk (s : SpecDecodeScheduler) : Prop where
  accounted : s.vskm.Accounted
  opened : ∀ id : Nat, s.vskm.regionOf id ≠ 0 →
    ∃ r : LangRequest, s.activeRequests[id]? = some r ∧ r.InRound

/-- A request that is in no round has no region. -/
theorem RegionsOk.closed {s : SpecDecodeScheduler} (G : RegionsOk s) {req : LangRequest}
    (hact : s.activeRequests[req.requestId]? = some req) (hout : ¬ req.InRound) :
    s.vskm.regionOf req.requestId = 0 := by
  by_contra hopen
  obtain ⟨r, hr, hin⟩ := G.opened _ hopen
  rw [hact, Option.some.injEq] at hr
  exact hout (hr ▸ hin)

/-- A task keeps VSKM accounted for: the prompt's reset finds no region. -/
theorem TaskDone.follows {s : SpecDecodeScheduler} {req : LangRequest} {info : ModelMeta}
    {after : Option LangRequest} (htask : TaskDone s req info after) (A : s.vskm.Accounted)
    (hclosed : ¬ req.InRound → s.vskm.regionOf req.requestId = 0) :
    s.vskm.Follows (s.taskVskm req info) := by
  unfold taskVskm
  cases htask with
  | prompt hty hphase hround =>
      rw [hty]
      exact A.resetRequest _ (hclosed (LangRequest.not_inRound (.inl hphase))) _
  | draft hty =>
      rw [hty]
      exact A.draftToken _
  | verify hty =>
      rw [hty]
      exact A.completeVerify _ _ _
  | retire hty =>
      rw [hty]
      exact A.completeVerify _ _ _
  | preVerify hty =>
      rw [hty]
      exact A.preVerify _

/-- A task leaves its request with a region only inside the round. -/
theorem TaskDone.region {s : SpecDecodeScheduler} {req : LangRequest} {info : ModelMeta}
    {after : Option LangRequest} (htask : TaskDone s req info after)
    (hopen : (s.taskVskm req info).regionOf req.requestId ≠ 0) :
    ∃ r, after = some r ∧ r.InRound := by
  unfold taskVskm at hopen
  cases htask with
  | prompt hty hphase hround =>
      rw [hty] at hopen
      exact absurd ((s.vskm.resetRequest_regionOf _ _ _).trans (if_pos rfl)) hopen
  | draft hty => exact ⟨_, rfl, s.draftedRequest_inRound req⟩
  | verify hty =>
      rw [hty] at hopen
      exact absurd ((s.vskm.completeVerify_regionOf _ _ _ _).trans (if_pos rfl)) hopen
  | retire hty =>
      rw [hty] at hopen
      exact absurd ((s.vskm.completeVerify_regionOf _ _ _ _).trans (if_pos rfl)) hopen
  | preVerify hty hphase => exact ⟨req, rfl, .inr hphase⟩

theorem taskVskm_regionOf_other (s : SpecDecodeScheduler) (req : LangRequest) (info : ModelMeta)
    {id : Nat} (hne : id ≠ req.requestId) :
    (s.taskVskm req info).regionOf id = s.vskm.regionOf id := by
  unfold taskVskm
  cases info.taskType with
  | prompt => exact (s.vskm.resetRequest_regionOf _ _ _).trans (if_neg hne)
  | draft => exact s.vskm.draftToken_regionOf_other _ _ hne
  | verify => exact (s.vskm.completeVerify_regionOf _ _ _ _).trans (if_neg hne)
  | preVerify => exact s.vskm.preVerify_regionOf _ _
  | autoreg => rfl

/-! ## 2. The moves -/

theorem RegionsOk.finish {s : SpecDecodeScheduler} (G : RegionsOk s) {modelId : Nat}
    {info : ModelMeta} {req : LangRequest} (hid : info.requestId = req.requestId)
    (hact : s.activeRequests[req.requestId]? = some req)
    (htask : TaskDone s req info (s.afterTask req info)) :
    s.vskm.Follows (s.completed modelId req info).2.vskm ∧
      RegionsOk (s.completed modelId req info).2 := by
  have hactive := s.completed_activeRequests modelId req info hid hact
  have hfollows := htask.follows G.accounted (G.closed hact)
  refine ⟨by rw [completed_vskm]; exact hfollows, by rw [completed_vskm]; exact hfollows.accounted,
    fun id hopen => ?_⟩
  rw [completed_vskm] at hopen
  rw [hactive]
  split
  · next heq =>
      subst heq
      obtain ⟨r, hr, hin⟩ := htask.region hopen
      exact ⟨{ r with running := false }, by rw [hr]; rfl, hin⟩
  · next hne =>
      rw [taskVskm_regionOf_other s req info hne] at hopen
      exact G.opened id hopen

/-- A planning finds the region of its request closed. -/
theorem RegionsOk.plan {s : SpecDecodeScheduler} (G : RegionsOk s) {req : LangRequest}
    (hact : s.activeRequests[req.requestId]? = some req)
    (hphase : req.specPhase = .draftRoundStart) :
    s.vskm.Follows (s.planRound req).2.vskm ∧ RegionsOk (s.planRound req).2 := by
  obtain ⟨ssrc, deferred, heq⟩ := s.planRound_eq req
  have hvskm : (s.planRound req).2.vskm = s.vskm.beginRound req.requestId (req.specRound + 1)
      req.currentLength (s.pickDraftLength req).1 := by rw [heq]
  have hclosed := G.closed hact (LangRequest.not_inRound (.inr hphase))
  have hfollows := G.accounted.beginRound req.requestId hclosed (req.specRound + 1)
    req.currentLength (s.pickDraftLength req).1
  refine ⟨by rw [hvskm]; exact hfollows, by rw [hvskm]; exact hfollows.accounted,
    fun id hopen => ?_⟩
  rw [hvskm, VSKM.beginRound_regionOf] at hopen
  rw [s.planRound_lookup req]
  split at hopen
  · exact absurd rfl hopen
  · next hne =>
      rw [if_neg hne]
      exact G.opened id hopen

/-- **Every move keeps the regions.** -/
theorem RegionsOk.move {s s' : SpecDecodeScheduler} {e : List Event} (I : ProtocolOk s)
    (G : RegionsOk s) (hm : Move s s' e) : RegionsOk s' := by
  cases hm with
  | minor s' hm => exact ⟨by rw [hm.vskm]; exact G.accounted, by
      rw [hm.vskm, hm.active]; exact G.opened⟩
  | admitOne r rest hq =>
      refine ⟨G.accounted, fun id hopen => ?_⟩
      obtain ⟨q, hact, hin⟩ := G.opened id hopen
      refine ⟨q, ?_, hin⟩
      rw [s.admit_lookup r rest, if_neg]
      · exact hact
      · intro heq
        rw [heq, I.admit_fresh hq] at hact
        cases hact
  | plan req hact hrun hphase => exact (G.plan hact hphase).2
  | issue s₁ req req' model seqLength info built g hact hrun hprep hgen =>
      have L := hprep.launched hgen
      obtain ⟨v, hactive⟩ := L.active
      refine ⟨by rw [L.vskm]; exact G.accounted, fun id hopen => ?_⟩
      rw [L.vskm] at hopen
      obtain ⟨q, hq, hin⟩ := G.opened id hopen
      rw [hactive]
      split
      · next heq =>
          rw [heq, hact, Option.some.injEq] at hq
          subst hq
          exact ⟨_, rfl, hin⟩
      · exact ⟨q, hq, hin⟩
  | finish modelId info req hinfo hid hact htask => exact (G.finish hid hact htask).2

/-- The moves that finish no task leave the counter and the peak alone. -/
theorem counters_move {s s' : SpecDecodeScheduler} {e : List Event} (hm : Move s s' e)
    (hno : ∀ ev, .finished ev ∉ e) :
    s'.vskm.currentSpeculativeKvBytes = s.vskm.currentSpeculativeKvBytes ∧
      s'.vskm.stats.peakSpeculativeKvBytes = s.vskm.stats.peakSpeculativeKvBytes := by
  cases hm with
  | minor s' hm =>
      rw [hm.vskm]
      exact ⟨rfl, rfl⟩
  | admitOne r rest hq => exact ⟨rfl, rfl⟩
  | plan req hact hrun hphase =>
      obtain ⟨ssrc, deferred, heq⟩ := s.planRound_eq req
      rw [heq]
      exact ⟨rfl, rfl⟩
  | issue s₁ req req' model seqLength info built g hact hrun hprep hgen =>
      rw [(hprep.launched hgen).vskm]
      exact ⟨rfl, rfl⟩
  | finish modelId info req hinfo hid hact htask => exact absurd List.mem_cons_self (hno _)

/-- **The peak follows the counter, call by call.** -/
theorem step_follows {c : Setup} {s s' : SpecDecodeScheduler} {a : Act} (I : ProtocolOk s)
    (C : Configured c s) (G : RegionsOk s) (hs : machine.step s a = some s') :
    s'.vskm.stats.peakSpeculativeKvBytes =
      max s.vskm.stats.peakSpeculativeKvBytes s'.vskm.currentSpeculativeKvBytes := by
  rcases step_completes (c := c) (P := fun t =>
      t.vskm.currentSpeculativeKvBytes = s.vskm.currentSpeculativeKvBytes ∧
        t.vskm.stats.peakSpeculativeKvBytes = s.vskm.stats.peakSpeculativeKvBytes)
      (fun t t' e _ _ hP hm hno => by
        obtain ⟨hcurrent, hpeak⟩ := counters_move hm hno
        exact ⟨hcurrent.trans hP.1, hpeak.trans hP.2⟩) I C ⟨rfl, rfl⟩ hs with
    ⟨modelId, info, req, _, hinfo, hid, hact, rfl, _⟩ | ⟨⟨hcurrent, hpeak⟩, _⟩
  · exact (G.finish hid hact (I.taskDone hinfo hid hact)).1.peak
  · rw [hcurrent, hpeak]
    exact (Nat.max_eq_left G.accounted.peak).symm

end SpecDecodeScheduler

/-! ## 3. Every run -/

section

open SpecDecodeScheduler

variable {c : Setup} {s : SpecDecodeScheduler} {h : List Event}

theorem SpecDecodeScheduler.Fresh.accounted (F : Fresh c s) : s.vskm.Accounted := by
  obtain ⟨hcurrent, hpeak⟩ := F.regions
  refine ⟨?_, by rw [hcurrent, hpeak]⟩
  unfold VSKM.regionBytes
  rw [hcurrent, F.vskm.1, sumBy_empty]

/-- The regions of every reachable state. -/
theorem Setup.Reach.regions (hr : c.Reach s h) : RegionsOk s := by
  cases ht : c.targetModel.isSome with
  | true =>
      refine hr.induct ht (P := fun s _ => RegionsOk s) (fun s₀ F => ⟨F.accounted, ?_⟩)
        fun s h s' e I _ G hm => G.move I hm
      intro id hopen
      unfold VSKM.regionOf at hopen
      rw [F.vskm.1, lookup_empty] at hopen
      exact absurd rfl hopen
  | false =>
      obtain ⟨s₀, hstart, hexec⟩ := hr
      have F := Setup.start_fresh hstart
      have hsame : c.Reach s h ∧ s.vskm = s₀.vskm := by
        refine hexec.invariant (P := fun s h => c.Reach s h ∧ s.vskm = s₀.vskm)
          ⟨⟨s₀, hstart, .start⟩, rfl⟩ fun s h a s' hP hs => ⟨hP.1.exec (.one hs), ?_⟩
        exact ((hP.1.fallback ht).untouched hs).1.trans hP.2
      refine ⟨by rw [hsame.2]; exact F.accounted, fun id hopen => ?_⟩
      unfold VSKM.regionOf at hopen
      rw [hsame.2, F.vskm.1, lookup_empty] at hopen
      exact absurd rfl hopen

theorem Setup.Reach.peak_step (hr : c.Reach s h) {a : Act} {s' : SpecDecodeScheduler}
    (hs : machine.step s a = some s') : s'.vskm.stats.peakSpeculativeKvBytes =
      max s.vskm.stats.peakSpeculativeKvBytes s'.vskm.currentSpeculativeKvBytes := by
  cases ht : c.targetModel.isSome with
  | true =>
      obtain ⟨I, C⟩ := hr.inv ht
      exact step_follows I C hr.regions hs
  | false =>
      rw [((hr.fallback ht).untouched hs).1]
      exact (Nat.max_eq_left hr.regions.accounted.peak).symm

/-- The values the counter had up to the end of a list of calls. -/
def Setup.speculativeBytes (c : Setup) (as : List Act) : Set Nat :=
  { v | ∃ bs, bs <+: as ∧ ∃ s h, c.run bs = some (s, h) ∧ v = s.vskm.currentSpeculativeKvBytes }

/-- One call adds the value after it. -/
theorem Setup.speculativeBytes_snoc (c : Setup) (as : List Act) (a : Act)
    {s : SpecDecodeScheduler} {h : List Event} (hr : c.run (as ++ [a]) = some (s, h)) :
    c.speculativeBytes (as ++ [a]) =
      insert s.vskm.currentSpeculativeKvBytes (c.speculativeBytes as) := by
  ext v
  constructor
  · rintro ⟨bs, hb, t, h', hrun, rfl⟩
    rcases List.prefix_concat_iff.mp hb with rfl | hb
    · rw [hr] at hrun
      cases hrun
      exact .inl rfl
    · exact .inr ⟨bs, hb, t, h', hrun, rfl⟩
  · rintro (rfl | ⟨bs, hb, t, h', hrun, rfl⟩)
    · exact ⟨_, List.prefix_rfl, s, h, hr, rfl⟩
    · exact ⟨bs, hb.trans (List.prefix_append _ _), t, h', hrun, rfl⟩

/-- The peak is the largest value the counter had. -/
theorem Setup.isGreatest_peak (c : Setup) (as : List Act) {s : SpecDecodeScheduler}
    {h : List Event} (hr : c.run as = some (s, h)) :
    IsGreatest (c.speculativeBytes as) s.vskm.stats.peakSpeculativeKvBytes := by
  induction as using List.reverseRecOn generalizing s h with
  | nil =>
      obtain ⟨s₀, hstart, hrun⟩ := Option.bind_eq_some_iff.mp hr
      cases hrun
      obtain ⟨hcurrent, hpeak⟩ := (Setup.start_fresh hstart).regions
      rw [hpeak]
      refine ⟨⟨[], List.prefix_rfl, _, _, hr, hcurrent.symm⟩, ?_⟩
      rintro v ⟨bs, hb, t, h', hrun, rfl⟩
      rw [List.prefix_nil.mp hb, hr] at hrun
      cases hrun
      exact hcurrent.le
  | append_singleton as a ih =>
      rw [c.speculativeBytes_snoc as a hr]
      rw [c.run_snoc] at hr
      obtain ⟨⟨t, h'⟩, hrun, hstep⟩ := Option.bind_eq_some_iff.mp hr
      obtain ⟨s', hs, heq⟩ := Option.map_eq_some_iff.mp hstep
      cases heq
      rw [(Setup.reach_of_run hrun).peak_step hs, max_comm]
      exact (ih hrun).insert _

end

end Ahasd
