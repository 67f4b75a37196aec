/-
  File:      Ahasd/Scheduler/Progress.lean
  Subject:   THE NCR AT TVC'S DECISIONS.

  The beacon of the core clock keeps NCR at the cycles since `start_npu_task`; the scheduler calls
  `start_npu_task` right before each decision, for the request that asks, and not when a
  verification is issued.

  * `Decision`, `decisionsOf`: the decisions of a call, with the verifications in flight;
  * `Decision.Blind`, `decisionsOf_blind`: every decision is taken at NCR 0, and every verification
    in flight was issued in an earlier cycle;
  * **`ncr_reflects_progress`**: the decisions of a run see the progress exactly when each is taken
    with no verification in flight.
-/
import Ahasd.Scheduler.Clock

namespace Ahasd

open Std Transition OrderedMap

/-! ## 1. Decisions -/

/-- A decision of TVC: the request that asks, the clock, the NCR the decision uses, and the records
    of the verifications in flight. -/
structure Decision where
  requestId : Nat
  clock : Nat
  ncr : Nat
  inFlight : List ModelMeta

namespace Decision

variable (d : Decision)

/-- The most recently issued verification of another request that is in flight. -/
structure LatestOther (info : ModelMeta) : Prop where
  flying : info ∈ d.inFlight
  other : info.requestId ≠ d.requestId
  latest : ∀ info' ∈ d.inFlight, info'.requestId ≠ d.requestId → info'.issueCycle ≤ info.issueCycle

/-- **NCR is the progress of the NPU**: the cycles since the issue of the latest verification of
    another request, up to one tick, and 0 only when none issued in an earlier cycle is in
    flight. -/
structure ReflectsProgress : Prop where
  elapsed : ∀ info, d.LatestOther info →
    d.ncr ≤ d.clock - info.issueCycle + 1 ∧ d.clock - info.issueCycle ≤ d.ncr + 1
  zero : d.ncr = 0 → ∀ info ∈ d.inFlight, ¬ info.issueCycle < d.clock

/-- A decision at NCR 0, whatever is in flight. -/
structure Blind : Prop where
  zero : d.ncr = 0
  earlier : ∀ info ∈ d.inFlight, info.issueCycle < d.clock

variable {d}

theorem Blind.reflects_iff (h : d.Blind) : d.ReflectsProgress ↔ d.inFlight = [] := by
  constructor
  · intro hreflects
    exact List.eq_nil_iff_forall_not_mem.mpr fun info hinfo =>
      hreflects.zero h.zero info hinfo (h.earlier info hinfo)
  · intro hnone
    refine ⟨fun info hlatest => ?_, fun _ info hinfo => ?_⟩
    · have hflying := hlatest.flying
      rw [hnone] at hflying
      cases hflying
    · rw [hnone] at hinfo
      cases hinfo

end Decision

namespace SpecDecodeScheduler

/-- The records of the verifications in flight. -/
def verifiesInFlight (s : SpecDecodeScheduler) : List ModelMeta :=
  (s.modelMeta.toList.map Prod.snd).filter fun info => info.taskType = .verify

/-- The decision of a call, for the request whose task it issues: `should_insert_preverification`
    counts its decisions, and the call leaves NCR as the decision used it. -/
def decisionsOf (s : SpecDecodeScheduler) (a : Act) (s' : SpecDecodeScheduler) : List Decision :=
  match a, s.control, s'.control, newModels s s' with
  | .cycle, some t, some t', [m] =>
      if t.totalDecisions < t'.totalDecisions then
        [⟨m.2.requestId, s'.cycleCount, t'.ncr, s.verifiesInFlight⟩]
      else []
  | _, _, _, _ => []

/-- The scheduler as a machine that shows its decisions. -/
def decisionMachine : Machine SpecDecodeScheduler Act Decision where
  step := step
  obs := decisionsOf

/-! ## 2. What the rules keep -/

/-- The decisions taken so far. -/
def decisionCount (s : SpecDecodeScheduler) : Option Nat :=
  s.control.map TVC.totalDecisions

/-- **A rule that shows no issue and no completion takes no decision.** -/
theorem Rule.decisionCount {s s' : SpecDecodeScheduler} {e : List Event} (h : Rule s s' e)
    (hissue : ∀ built info, .issued built info ∉ e) (hfinish : ∀ ev, .finished ev ∉ e) :
    s'.decisionCount = s.decisionCount := by
  cases h with
  | tick => rfl
  | admitOne r rest hq ht => rfl
  | unstall id => rfl
  | pop model rest hq => rfl
  | memory f g hf hg => rfl
  | draw g hg => rfl
  | orphan modelId info hinfo hact => rfl
  | stray modelId base hinfo hbase => rfl
  | beacon npuCycle =>
      exact control_keeps (p := TVC.totalDecisions) rfl fun a =>
        a.updateTvc_keeps fun t => t.updateNpuProgress_totalDecisions npuCycle
  | plan req hact hrun hphase =>
      obtain ⟨ssrc, deferred, heq⟩ := s.planRound_eq req
      rw [heq]
      refine control_keeps (p := TVC.totalDecisions) rfl fun a => ?_
      unfold planAhasd
      split
      · rw [AHASDIntegration.decideDraftLength_control]
      · rfl
  | issue s₁ req req' model seqLength info built g hact hrun hprep hgen =>
      exact absurd (List.mem_singleton.mpr rfl) (hissue _ _)
  | finish modelId info req hinfo hact => exact absurd (List.mem_singleton.mpr rfl) (hfinish _)

theorem chain_decisionCount {s s' : SpecDecodeScheduler} {e : List Event} (hc : Chain Rule s s' e)
    (hissue : ∀ built info, .issued built info ∉ e) (hfinish : ∀ ev, .finished ev ∉ e) :
    s'.decisionCount = s.decisionCount := by
  refine hc.preserves (P := fun t h => (∀ built info, .issued built info ∉ h) →
    (∀ ev, .finished ev ∉ h) → t.decisionCount = s.decisionCount) (h := []) ?_ (fun _ _ => rfl)
    hissue hfinish
  intro t h t' e hP hr hi hf
  refine (hr.decisionCount (fun built info hm => ?_) fun ev hm => ?_).trans
    (hP (fun built info hm => ?_) fun ev hm => ?_)
  · exact hi built info (List.mem_append_right h hm)
  · exact hf ev (List.mem_append_right h hm)
  · exact hi built info (List.mem_append_left e hm)
  · exact hf ev (List.mem_append_left e hm)

/-- The tasks in flight were issued up to now. -/
def IssuedBefore (s : SpecDecodeScheduler) : Prop :=
  ∀ (mid : Nat) (info : ModelMeta), s.modelMeta[mid]? = some info → info.issueCycle ≤ s.cycleCount

theorem IssuedBefore.rule {s s' : SpecDecodeScheduler} {e : List Event} (B : IssuedBefore s)
    (h : Rule s s' e) : IssuedBefore s' := by
  have hclock := h.clock
  have hsame : s'.modelMeta = s.modelMeta → IssuedBefore s' := by
    intro heq mid info hinfo
    rw [heq] at hinfo
    exact (B mid info hinfo).trans hclock
  have herase : ∀ modelId : Nat, s'.modelMeta = s.modelMeta.erase modelId → IssuedBefore s' := by
    intro modelId heq mid info hinfo
    rw [heq, lookup_erase] at hinfo
    split at hinfo
    · cases hinfo
    · exact (B mid info hinfo).trans hclock
  cases h with
  | tick => exact hsame rfl
  | admitOne r rest hq ht => exact hsame rfl
  | unstall id => exact hsame rfl
  | pop model rest hq => exact hsame rfl
  | memory f g hf hg => exact hsame rfl
  | draw g hg => exact hsame rfl
  | beacon npuCycle => exact hsame rfl
  | stray modelId base hinfo hbase => exact hsame rfl
  | plan req hact hrun hphase =>
      obtain ⟨ssrc, deferred, heq⟩ := s.planRound_eq req
      exact hsame (by rw [heq])
  | orphan modelId info hinfo hact => exact herase modelId rfl
  | finish modelId info req hinfo hact => exact herase modelId (completed_modelMeta _ _ _ _)
  | issue s₁ req req' model seqLength info built g hact hrun hprep hgen =>
      intro mid info' hinfo
      rw [(hprep.launched hgen).modelMeta] at hinfo
      split at hinfo
      · cases hinfo
        have hnow : info.issueCycle = s.cycleCount := by cases hprep <;> rfl
        exact hnow.le.trans hclock
      · exact (B mid info' hinfo).trans hclock

/-! ## 3. The decisions of a call -/

theorem not_issued_plannedBy {s s' : SpecDecodeScheduler} {info : ModelMeta} (built : Model)
    (info' : ModelMeta) : .issued built info' ∉ plannedBy s s' info := by
  unfold plannedBy
  split <;> simp

theorem not_finished_plannedBy {s s' : SpecDecodeScheduler} {info : ModelMeta} (ev : LangStepEvent) :
    .finished ev ∉ plannedBy s s' info := by
  unfold plannedBy
  split <;> simp

/-- **An issue that changes TVC leaves NCR at 0.** -/
theorem Move.issue_ncr {s s' : SpecDecodeScheduler} {built : Model} {info : ModelMeta}
    (h : Move s s' [.issued built info]) {t : TVC} (ht : s'.control = some t)
    (hchanged : s'.control ≠ s.control) : t.ncr = 0 := by
  cases h with
  | issue s₁ req req' model seqLength info built g hact hrun hprep hgen =>
      have hlaunched : (s₁.launched req' info built g).control = s₁.control := control_congr rfl
      rw [hlaunched] at ht hchanged
      rcases hprep.registers with hsame | hdecided
      · exact absurd hsame hchanged
      · have hregisters : s₁.registers = some t.registers := congrArg (Option.map TVC.registers) ht
        rw [hregisters] at hdecided
        obtain ⟨_, _, hzero⟩ := Option.map_eq_some_iff.mp hdecided.symm
        exact (congrArg Prod.snd hzero).symm

/-- **A decision of a call is blind.** -/
theorem decisionsOf_blind {s s' : SpecDecodeScheduler} {a : Act} (I : ProtocolOk s)
    (B : IssuedBefore s) (hs : machine.step s a = some s') {d : Decision}
    (hd : d ∈ decisionsOf s a s') : d.Blind := by
  unfold decisionsOf at hd
  split at hd
  · next t t' m ht ht' hm =>
      split at hd
      · next hlt =>
          have hcycle : s.cycle = some s' := hs
          have hclock : s.cycleCount < s'.cycleCount := by
            rw [cycle_clock I hcycle]
            exact Nat.lt_succ_self _
          rw [List.mem_singleton.mp hd]
          refine ⟨?_, fun info hinfo => ?_⟩
          · rcases cycle_cases I hcycle with ⟨_, hobs⟩ | ⟨u, built, info, hchain, hissue, _⟩
            · unfold observe at hobs
              dsimp only at hobs
              rw [hm] at hobs
              simp at hobs
            · refine ((I.chain hchain).move hissue).issue_ncr ht' fun hsame => ?_
              have hcount := chain_decisionCount hchain not_issued_plannedBy not_finished_plannedBy
              unfold decisionCount at hcount
              rw [← hsame, ht, ht'] at hcount
              exact absurd (Option.some.inj hcount) hlt.ne'
          · obtain ⟨hflying, _⟩ := List.mem_filter.mp hinfo
            obtain ⟨p, hp, rfl⟩ := List.mem_map.mp hflying
            exact (B p.1 p.2 (TreeMap.mem_toList_iff_getElem?_eq_some.mp hp)).trans_lt hclock
      · cases hd
  · cases hd

end SpecDecodeScheduler

section

open SpecDecodeScheduler

variable {c : Setup} {s s' : SpecDecodeScheduler}

/-- In every run: a call's decision is blind, with a target model or without. -/
theorem Setup.Reach.blind {h : List Event} (hr : c.Reach s h) {a : Act}
    (hs : machine.step s a = some s') {d : Decision} (hd : d ∈ decisionsOf s a s') : d.Blind := by
  cases ht : c.targetModel.isSome with
  | true =>
      have B : IssuedBefore s := by
        refine hr.induct_rules ht (P := fun s _ => IssuedBefore s) (fun s₀ F mid info hinfo => ?_)
          fun _ _ _ _ _ _ B hrule => B.rule hrule
        rw [F.noModel] at hinfo
        cases hinfo
      exact decisionsOf_blind (hr.inv ht).1 B hs hd
  | false =>
      -- nothing is issued, so nothing is decided
      have N := (hr.exec (.one hs)).fallback ht
      have hnone : newModels s s' = [] := by
        unfold newModels
        exact List.filterMap_eq_nil_iff.mpr fun m _ => by rw [N.noModel]; rfl
      unfold decisionsOf at hd
      rw [hnone] at hd
      split at hd
      · next heq => cases heq
      · cases hd

/-- The run of a list of calls, with its decisions. -/
def Setup.decisionRun (c : Setup) (as : List Act) : Option (SpecDecodeScheduler × List Decision) :=
  c.start.bind (decisionMachine.run as)

/-- **The decisions of a run see the progress of the NPU if and only if each is taken with no
    verification in flight**: `start_npu_task` sets NCR to 0 right before every decision. -/
theorem ncr_reflects_progress {as : List Act} {l : List Decision}
    (hrun : c.decisionRun as = some (s, l)) :
    (∀ d ∈ l, d.ReflectsProgress) ↔ ∀ d ∈ l, d.inFlight = [] := by
  obtain ⟨s₀, hstart, hrun⟩ := Option.bind_eq_some_iff.mp hrun
  have hblind : (∃ e, c.Reach s e) ∧ ∀ d ∈ l, d.Blind := by
    refine (exec_of_run hrun).invariant (P := fun s l => (∃ e, c.Reach s e) ∧ ∀ d ∈ l, d.Blind)
      ⟨⟨[], s₀, hstart, .start⟩, fun d hd => absurd hd List.not_mem_nil⟩ ?_
    rintro s l a s' ⟨⟨e, hr⟩, hl⟩ hs
    refine ⟨⟨_, hr.exec (.one hs)⟩, fun d hd => ?_⟩
    rcases List.mem_append.mp hd with hd | hd
    · exact hl d hd
    · exact hr.blind hs hd
  exact forall_congr' fun d => imp_congr_right fun hd => (hblind.2 d hd).reflects_iff

/-- Two requests and drafts of three tokens. -/
def twoVerifications : Setup :=
  let c := sampleSetup [⟨0, 4, 9, 1⟩, ⟨0, 4, 9, 1⟩] []
  { c with config := { c.config with enableEdc := false } }

/-- The calls that draft a round of each request. -/
def draftedRounds : List Act :=
  [4, 6, 8, 10].flatMap fun id => [.cycle, .cycle, .finishModel id, .finishModel (id + 1)]

/-- The first request's verification is decided on with nothing in flight. -/
theorem ncr_reflects_progress_sample : ∃ s d,
    twoVerifications.decisionRun (draftedRounds ++ [.cycle]) = some (s, [d]) ∧
      d.ReflectsProgress := by
  have hfacts : ((twoVerifications.decisionRun (draftedRounds ++ [.cycle])).any fun r =>
      decide (r.2.length = 1) && r.2.all fun d => d.inFlight.isEmpty) = true := by decide +kernel
  obtain ⟨⟨s, l⟩, hrun, hfacts⟩ := (Option.any_eq_true _ _).mp hfacts
  rw [Bool.and_eq_true] at hfacts
  obtain ⟨d, rfl⟩ := List.length_eq_one_iff.mp (of_decide_eq_true hfacts.1)
  have hempty : ∀ d' ∈ [d], d'.inFlight = [] := fun d' hd' =>
    List.isEmpty_iff.mp (List.all_eq_true.mp hfacts.2 d' hd')
  exact ⟨s, d, hrun, (ncr_reflects_progress hrun).mpr hempty d (List.mem_singleton.mpr rfl)⟩

/-- The second request's is decided on at NCR 0, while the first verification is in flight. -/
theorem decision_misses_progress : ¬ ∀ (c : Setup) (as : List Act) (s : SpecDecodeScheduler)
    (l : List Decision), c.decisionRun as = some (s, l) → ∀ d ∈ l, d.ReflectsProgress := by
  intro hclaim
  have hfacts : ((twoVerifications.decisionRun (draftedRounds ++ [.cycle, .cycle])).any fun r =>
      r.2.any fun d => decide (d.ncr = 0) &&
        d.inFlight.any fun info => decide (info.issueCycle < d.clock)) = true := by decide +kernel
  obtain ⟨⟨s, l⟩, hrun, hfacts⟩ := (Option.any_eq_true _ _).mp hfacts
  obtain ⟨d, hd, hfacts⟩ := List.any_eq_true.mp hfacts
  rw [Bool.and_eq_true] at hfacts
  obtain ⟨info, hinfo, hearlier⟩ := List.any_eq_true.mp hfacts.2
  exact (hclaim _ _ s l hrun d hd).zero (of_decide_eq_true hfacts.1) info hinfo
    (of_decide_eq_true hearlier)

end

end Ahasd
