/-
  File:      Ahasd/Scheduler/Flags.lean
  Subject:   THE REPORTED ACCEPTANCE RATIO (print_acceptance_stats) under the feature flags.

  The ratio is that of all samples: one for each verification and each pre-verification. The flags
  reach it in two ways: EDC cuts a draft short, and TVC has a prefix sampled once more.

  * `Flags`, `Setup.withFlags`: one set-up under the settings of the flags;
  * `GoesOn`, `pickDraftLength_goesOn`: while EDC never says stop, the drafts are those without it;
  * `sum_finishedOf`: the tokens of all verifications are those of the rounds, request by request;
  * **`ratio_independent_of_flags`**: where neither happens, full runs report one ratio.
-/
import Ahasd.DraftLength
import Ahasd.Scheduler.Ledger
import Ahasd.Scheduler.Solo

namespace Ahasd

open Std Transition OrderedMap

/-! ## 1. The flags -/

/-- The settings of the four flags. -/
structure Flags where
  enableAhasd : Bool
  enableEdc : Bool
  enableTvc : Bool
  pimEnable : Bool
  deriving DecidableEq, Repr

/-- The set-up under the flags. -/
def Setup.withFlags (c : Setup) (f : Flags) : Setup :=
  { c with
    config :=
      { c.config with
        enableAhasd := f.enableAhasd
        enableEdc := f.enableEdc
        enableTvc := f.enableTvc
        pimEnable := f.pimEnable } }

/-- The event is no planning in which EDC said stop. -/
def Event.goesOn : Event → Bool
  | .planned _ _ _ preds => preds.all (·.2)
  | _ => true

/-- In no planning of the history did EDC say stop. -/
def GoesOn (h : List Event) : Prop := ∀ x ∈ h, x.goesOn = true

/-- **Neither EDC nor TVC changed what is sampled**: no draft was cut short, and no prefix was
    pre-verified. -/
structure Unaided (h : List Event) : Prop where
  goesOn : GoesOn h
  noPreVerify : finishedOf .preVerify h = []

/-! ## 2. Plannings that are not cut short -/

namespace EDC

/-- Polls in a row are polls. -/
theorem pollTimes_polled (e : EDC) (hint : ℚ) (n : Nat) : ∃ preds,
    Polled hint e (e.pollTimes hint n) preds := by
  induction n with
  | zero => exact ⟨[], .refl hint e⟩
  | succ n ih =>
      obtain ⟨preds, hpolled⟩ := ih
      exact ⟨_, hpolled.trans ((e.pollTimes hint n).poll_polled hint)⟩

/-- A poll that says stop leaves a prediction that says so. -/
theorem stop_pending {e : EDC} {hint : ℚ} (hs : e.Sized) {n : Nat}
    (hstop : e.continuesAt hint n = false) :
    ∃ x ∈ (e.pollTimes hint (n + 1)).pending.drop e.pending.length, x.2 = false := by
  obtain ⟨preds, hpolled⟩ := e.pollTimes_polled hint n
  have hall := hpolled.trans ((e.pollTimes hint n).poll_polled hint)
  refine ⟨((e.pollTimes hint n).recordBucket hint).predict, ?_, hstop⟩
  rw [show (e.pollTimes hint (n + 1)).pending = _ from hall.pending hs, List.drop_left]
  exact List.mem_append_right _ (List.mem_singleton.mpr rfl)

end EDC

namespace SpecDecodeScheduler

/-- The picked length with EDC consulted is its decision. -/
theorem pickDraftLength_advised {s : SpecDecodeScheduler} {a : AHASDIntegration}
    (ha : s.ahasd = some a) (hedc : a.config.enableEdc = true) (req : LangRequest) :
    (s.pickDraftLength req).1 =
      (a.decideDraftLength (s.draftCap req) (computeEntropyHint req)).1 := by
  unfold pickDraftLength
  rw [ha]
  dsimp only
  rw [if_pos hedc]

/-- The length of the request alone, when the default is no shorter than the bound. -/
theorem draftLength_eq_cap {s : SpecDecodeScheduler} (hdefault : s.defaultDraftLength = s.maxDraftLength)
    (req : LangRequest) : s.roundSettings.draftLength req = max 1 (s.draftCap req) := by
  unfold RoundSettings.draftLength roundSettings draftCap
  dsimp only
  rw [hdefault]
  omega

/-- **While EDC does not say stop, the picked length is that of the request alone.** -/
theorem pickDraftLength_goesOn {s : SpecDecodeScheduler} {req : LangRequest}
    (hview : s.predictor = none ∨ ∃ v, Shows s v)
    (hdefault : s.defaultDraftLength = s.maxDraftLength)
    (hgo : ∀ x ∈ (s.planRound req).2.pendingPredictions.drop s.pendingPredictions.length,
      x.2 = true) :
    (s.pickDraftLength req).1 = s.roundSettings.draftLength req := by
  by_cases hedc : s.consultsEdc = true
  · obtain ⟨a, ha, hon⟩ := (Option.any_eq_true _ _).mp hedc
    rw [pickDraftLength_advised ha hon, draftLength_eq_cap hdefault]
    rcases hview with hnone | ⟨_, p, hp, hsized, _⟩
    · -- an enabled coordinator without a predictor decides the cap
      unfold predictor at hnone
      rw [ha, Option.bind_some] at hnone
      unfold AHASDIntegration.predictor at hnone
      rw [if_pos hon] at hnone
      unfold AHASDIntegration.decideDraftLength
      simp only [hon, hnone]
    · have hap : a.predictor = some p := by
        unfold predictor at hp
        rwa [ha, Option.bind_some] at hp
      obtain ⟨n, hfirst, hk, hafter⟩ :=
        AHASDIntegration.decideDraftLength_eq hap (computeEntropyHint req) (s.draftCap req)
      have hle := hfirst.le
      by_cases hshort : n < max 1 (s.draftCap req) - 1
      · have hpredictor : (s.planRound req).2.predictor =
            some (p.pollTimes (computeEntropyHint req) (n + 1)) := by
          obtain ⟨ssrc, deferred, heq⟩ := s.planRound_eq req
          rw [show min (n + 1) (max 1 (s.draftCap req) - 1) = n + 1 by omega] at hafter
          unfold predictor
          rw [heq]
          dsimp only
          rw [ha, Option.map_some, Option.bind_some]
          unfold planAhasd
          rw [if_pos hon]
          exact hafter
        obtain ⟨x, hx, hstop⟩ := EDC.stop_pending hsized (hfirst.stops hshort)
        have hgoes := hgo x (by
          unfold pendingPredictions
          rw [hpredictor, hp]
          exact hx)
        rw [hstop] at hgoes
        cases hgoes
      · rw [hk]
        omega
  · exact pickDraftLength_unadvised req hedc

end SpecDecodeScheduler

/-! ## 3. The rounds of a run without a stop -/

section

open SpecDecodeScheduler

variable {c : Setup} {s : SpecDecodeScheduler} {h : List Event} {row : RequestRow} {id : Nat}

/-- **A request whose run knows no stop is on its course.** -/
theorem Setup.Reach.onCourse_goesOn (ht : c.targetModel.isSome = true)
    (hrow : c.rows[id]? = some row) (hr : c.Reach s h) (hgo : GoesOn h) :
    OnCourse c.roundSettings row id s (roundTasks id h) := by
  obtain ⟨s₀, hstart, hexec⟩ := hr
  have F := Setup.start_fresh hstart
  have hview₀ : s₀.predictor = none ∨ ∃ v, Shows s₀ v := by
    cases hp₀ : s₀.predictor with
    | none => exact .inl rfl
    | some p₀ =>
        have hpredictor : c.ahasd.bind AHASDIntegration.predictor = some p₀ := by
          rw [← hp₀, ← F.ahasd]
          rfl
        exact .inr ⟨_, p₀, hp₀, (Setup.ahasd_predictor hpredictor).1, rfl⟩
  have hrule : ∀ s h s' e, ProtocolOk s → Configured c s →
      s.roundSettings = c.roundSettings ∧ (s.predictor = none ∨ ∃ v, Shows s v) ∧
        (GoesOn h → OnCourse c.roundSettings row id s (roundTasks id h)) →
      Rule s s' e → s'.roundSettings = c.roundSettings ∧
        (s'.predictor = none ∨ ∃ v, Shows s' v) ∧
        (GoesOn (h ++ e) → OnCourse c.roundSettings row id s' (roundTasks id (h ++ e))) := by
    rintro s h s' e I C ⟨hsettings, hview, O⟩ hs
    have hm := I.move hs
    refine ⟨hs.roundSettings.trans hsettings, hview.imp hm.predictor_none ?_, fun hgo => ?_⟩
    · rintro ⟨v, V⟩
      exact ⟨_, V.move hm⟩
    · have hdefault : s.defaultDraftLength = s.maxDraftLength :=
        congrArg RoundSettings.defaultDraftLength hsettings |>.trans
          (congrArg RoundSettings.maxDraftLength hsettings).symm
      have hplans : s.PlansAlone e := fun req hint hplanned =>
        pickDraftLength_goesOn hview hdefault
          (List.all_eq_true.mp (hgo _ (List.mem_append_right h hplanned)))
      have hbefore : GoesOn h := fun x hx => hgo x (List.mem_append_left e hx)
      exact (O hbefore).move I C hplans hsettings hrow hm
  exact (exec_rules hrule (F.protocolOk ht) F.configured
    ⟨Setup.start_roundSettings hstart, hview₀, fun _ => F.onCourse hrow⟩ hexec).2.2.2.2 hgo

/-! ## 4. The verifications, request by request -/

/-- A sum over a list is the sum over the keys of its entries. -/
theorem sum_map_byKey {α : Type} (f key : α → Nat) (n : Nat) (l : List α)
    (hl : ∀ e ∈ l, key e < n) :
    (l.map f).sum = ∑ i ∈ Finset.range n, ((l.filter fun e => key e = i).map f).sum := by
  induction l with
  | nil => simp
  | cons a l ih =>
      have hrest := ih fun e he => hl e (List.mem_cons_of_mem a he)
      have hcons : ∀ i, (((a :: l).filter fun e => key e = i).map f).sum =
          (if key a = i then f a else 0) + ((l.filter fun e => key e = i).map f).sum := by
        intro i
        by_cases hi : key a = i <;> simp [hi]
      rw [List.map_cons, List.sum_cons, hrest, Finset.sum_congr rfl fun i _ => hcons i,
        Finset.sum_add_distrib, Finset.sum_ite_eq, if_pos]
      exact Finset.mem_range.mpr (hl a List.mem_cons_self)

/-- The finished tasks of a kind and of a request, taken in either order. -/
theorem finishedOf_filter (ty : LangTaskType) (id : Nat) (h : List Event) :
    (finishedOf ty h).filter (fun e => e.requestId = id) =
      (completions id h).filter fun e => e.taskType = ty := by
  induction h with
  | nil => rfl
  | cons x h ih =>
      unfold finishedOf completions at ih ⊢
      cases x with
      | issued built info => exact ih
      | planned requestId n hint preds => exact ih
      | finished e =>
          by_cases hty : e.taskType = ty <;> by_cases hid : e.requestId = id <;>
            simp [Event.finishedTask, hty, hid, ih]

/-- The verifications of a request are those of its rounds. -/
theorem roundTasks_verify (id : Nat) (h : List Event) :
    ((completions id h).filter fun e => e.taskType = .verify).map LangStepEvent.roundTask =
      (roundTasks id h).filter fun t => t.taskType = .verify := by
  unfold roundTasks
  induction completions id h with
  | nil => rfl
  | cons e l ih =>
      rw [List.flatMap_cons, List.filter_append, ← ih]
      unfold LangStepEvent.shows
      cases hty : e.taskType <;>
        simp [hty, LangTaskType.ofRound, LangStepEvent.roundTask]

/-- **What all verifications add up to, request by request.** -/
theorem sum_finishedOf (f : RoundTask → Nat) (n : Nat)
    (hids : ∀ e ∈ finishedOf .verify h, e.requestId < n) :
    ((finishedOf .verify h).map fun e => f e.roundTask).sum =
      ∑ id ∈ Finset.range n,
        (((roundTasks id h).filter fun t => t.taskType = .verify).map f).sum := by
  rw [sum_map_byKey _ LangStepEvent.requestId n _ hids]
  refine Finset.sum_congr rfl fun id _ => ?_
  rw [finishedOf_filter, ← roundTasks_verify, List.map_map]
  rfl

/-- The tasks of a run are those of the requests of the trace. -/
theorem Setup.Reach.finished_lt (ht : c.targetModel.isSome = true) (hr : c.Reach s h) :
    ∀ e, .finished e ∈ h → e.requestId < c.rows.length := by
  refine hr.induct ht (P := fun _ h => ∀ e, .finished e ∈ h → e.requestId < c.rows.length)
    (fun _ _ e he => absurd he List.not_mem_nil) ?_
  intro s h s' e I C hids hm ev hev
  rcases List.mem_append.mp hev with hev | hev
  · exact hids ev hev
  · cases hm with
    | minor s' hm => cases hev
    | admitOne r rest hq => cases hev
    | plan req hact hrun hphase => cases List.mem_singleton.mp hev
    | issue s₁ req req' model seqLength info built g hact hrun hprep hgen =>
        cases List.mem_singleton.mp hev
    | finish modelId info req hinfo hid hact htask =>
        cases List.mem_singleton.mp hev
        rw [(s.completed_event modelId req info).1]
        exact C.request_lt hact

theorem mem_finishedOf {ty : LangTaskType} {e : LangStepEvent} (he : e ∈ finishedOf ty h) :
    .finished e ∈ h := by
  obtain ⟨x, hx, hsome⟩ := List.mem_filterMap.mp he
  unfold Event.finishedTask at hsome
  cases x with
  | finished e' =>
      dsimp only at hsome
      split at hsome
      · cases hsome
        exact hx
      · cases hsome
  | issued built info => cases hsome
  | planned id n hint preds => cases hsome

/-! ## 5. The ratio -/

/-- The simulation has finished: every request has left. -/
theorem SpecDecodeScheduler.left_of_idle (hend : s.busy = false) (id : Nat) : s.Left id := by
  unfold LangScheduler.busy at hend
  simp only [Bool.or_eq_false_iff, Bool.not_eq_false', List.isEmpty_iff] at hend
  obtain ⟨⟨_, hactive⟩, hqueue⟩ := hend
  refine ⟨?_, fun q hq => ?_⟩
  · exact TreeMap.getElem?_of_isEmpty hactive
  · rw [hqueue] at hq
    cases hq

/-- The tally of a full run is that of its rounds. -/
theorem Setup.Reach.tally_rounds (ht : c.targetModel.isSome = true) (hr : c.Reach s h)
    (hnone : finishedOf .preVerify h = []) :
    s.acceptKSum = ∑ id ∈ Finset.range c.rows.length, (((roundTasks id h).filter fun t =>
        t.taskType = .verify).map fun t => max 1 t.draftLength).sum ∧
      s.acceptSum = ∑ id ∈ Finset.range c.rows.length, (((roundTasks id h).filter fun t =>
        t.taskType = .verify).map RoundTask.acceptedLength).sum := by
  have T := hr.tally
  have hids : ∀ e ∈ finishedOf .verify h, e.requestId < c.rows.length := fun e he =>
    hr.finished_lt ht e (mem_finishedOf he)
  rw [T.drafted, T.accepted, hnone, ← sum_finishedOf _ _ hids, ← sum_finishedOf _ _ hids]
  exact ⟨rfl, rfl⟩

/-- Without a target model nothing is sampled. -/
theorem Setup.Reach.ratio_zero (ht : c.targetModel.isSome = false) (hr : c.Reach s h) :
    s.acceptRatio = 0 := by
  have hnone : ∀ ty ≠ LangTaskType.autoreg, finishedOf ty h = [] := by
    intro ty hty
    refine List.filterMap_eq_nil_iff.mpr fun x hx => ?_
    obtain ⟨ev, rfl, hauto⟩ := (hr.fallback ht).autoreg x hx
    exact if_neg fun heq => hty (heq.symm.trans hauto)
  have hdrafted := hr.tally.drafted
  rw [hnone .verify (by decide), hnone .preVerify (by decide)] at hdrafted
  unfold acceptRatio
  rw [hdrafted]
  rfl

/-- **Full runs of one set-up under any two settings of the flags report one ratio**, where in
    neither EDC cut a draft short or TVC had a prefix pre-verified. -/
theorem ratio_independent_of_flags {f₁ f₂ : Flags} {s₁ s₂ : SpecDecodeScheduler}
    {h₁ h₂ : List Event} (hr₁ : (c.withFlags f₁).Reach s₁ h₁) (hr₂ : (c.withFlags f₂).Reach s₂ h₂)
    (hend₁ : s₁.busy = false) (hend₂ : s₂.busy = false) (hunaided₁ : Unaided h₁)
    (hunaided₂ : Unaided h₂) : s₁.acceptRatio = s₂.acceptRatio := by
  cases ht : c.targetModel.isSome with
  | false =>
      rw [Setup.Reach.ratio_zero (c := c.withFlags f₁) ht hr₁,
        Setup.Reach.ratio_zero (c := c.withFlags f₂) ht hr₂]
  | true =>
      have hrounds : ∀ id ∈ Finset.range c.rows.length, roundTasks id h₁ = roundTasks id h₂ := by
        intro id hid
        have hrow := List.getElem?_eq_getElem (Finset.mem_range.mp hid)
        have O₁ := Setup.Reach.onCourse_goesOn (c := c.withFlags f₁) ht hrow hr₁ hunaided₁.goesOn
        have O₂ := Setup.Reach.onCourse_goesOn (c := c.withFlags f₂) ht hrow hr₂ hunaided₂.goesOn
        obtain ⟨r₁, hx₁, hdone₁⟩ := O₁.alone
        obtain ⟨r₂, hx₂, hdone₂⟩ := O₂.alone
        exact (RoundSettings.same_tasks hx₁ hx₂).2 (hdone₁ (left_of_idle hend₁ id))
          (hdone₂ (left_of_idle hend₂ id))
      obtain ⟨hdrafted₁, haccepted₁⟩ :=
        Setup.Reach.tally_rounds (c := c.withFlags f₁) ht hr₁ hunaided₁.noPreVerify
      obtain ⟨hdrafted₂, haccepted₂⟩ :=
        Setup.Reach.tally_rounds (c := c.withFlags f₂) ht hr₂ hunaided₂.noPreVerify
      have hdrafted : s₁.acceptKSum = s₂.acceptKSum := by
        rw [hdrafted₁, hdrafted₂]
        exact Finset.sum_congr rfl fun id hid => by rw [hrounds id hid]
      have haccepted : s₁.acceptSum = s₂.acceptSum := by
        rw [haccepted₁, haccepted₂]
        exact Finset.sum_congr rfl fun id hid => by rw [hrounds id hid]
      unfold acceptRatio
      rw [hdrafted, haccepted]

/-- A request of three rounds, the second of which rejects a draft; what VSKM rolls back is
    cheap. -/
def replayedSetup : Setup :=
  let c := sampleSetup [⟨0, 4, 5, 1⟩]
    [(⟨0, 1⟩, ⟨3, 0, 3⟩), (⟨0, 2⟩, ⟨2, 0, 1⟩), (⟨0, 3⟩, ⟨1, 0, 1⟩)]
  { c with config := { c.config with enableVskm := true, kvManagementMode := "vskm" } }

def allOff : Flags := ⟨false, false, false, false⟩

def allOn : Flags := ⟨true, true, true, true⟩

/-- Calls that issue, start and finish the models of the list. -/
def starting (modelIds : List Nat) : List Act :=
  modelIds.flatMap fun id => [.cycle, .popModel, .finishModel id]

/-- The calls of a full run of its three rounds, with the wait for the rollback; and of one whose
    slow first verification makes room for a pre-verification in the second round. -/
def promptCalls : List Act :=
  starting [2, 3, 4, 5, 6, 7, 8, 9] ++ List.replicate 16 .cycle ++ starting [10, 11]

def slowCalls : List Act :=
  starting [2, 3, 4, 5] ++ [.cycle, .popModel] ++ List.replicate 20 .cycle ++ [.finishModel 6] ++
    starting [7, 8, 9, 10] ++ List.replicate 16 .cycle ++ starting [11, 12]

/-- All off and all on, with the same calls. -/
theorem ratio_independent_of_flags_sample : ∃ s₁ h₁ s₂ h₂,
    (replayedSetup.withFlags allOff).Reach s₁ h₁ ∧ (replayedSetup.withFlags allOn).Reach s₂ h₂ ∧
      s₁.acceptKSum = 6 ∧ s₁.acceptRatio = s₂.acceptRatio := by
  obtain ⟨s₁, h₁, hr₁, hfacts₁⟩ := Setup.exists_reach (c := replayedSetup.withFlags allOff)
    (l := promptCalls) (p := fun r => decide (r.1.acceptKSum = 6 ∧ r.1.busy = false ∧
      (∀ x ∈ r.2, x.goesOn = true) ∧ finishedOf .preVerify r.2 = [])) (by decide +kernel)
  obtain ⟨s₂, h₂, hr₂, hfacts₂⟩ := Setup.exists_reach (c := replayedSetup.withFlags allOn)
    (l := promptCalls) (p := fun r => decide (r.1.busy = false ∧
      (∀ x ∈ r.2, x.goesOn = true) ∧ finishedOf .preVerify r.2 = [])) (by decide +kernel)
  obtain ⟨hsum, hend₁, hgo₁, hnone₁⟩ := of_decide_eq_true hfacts₁
  obtain ⟨hend₂, hgo₂, hnone₂⟩ := of_decide_eq_true hfacts₂
  exact ⟨s₁, h₁, s₂, h₂, hr₁, hr₂, hsum,
    ratio_independent_of_flags hr₁ hr₂ hend₁ hend₂ ⟨hgo₁, hnone₁⟩ ⟨hgo₂, hnone₂⟩⟩

/-- The task of the event is of a round with a row in the replayed trace. -/
def Event.replayed (rows : List (TraceKey × TraceRow)) : Event → Bool
  | .finished e => e.specRound = 0 || (rows.lookup ⟨e.requestId, e.specRound⟩).isSome
  | _ => true

/-- The runs replay a trace with a row for every round of theirs. -/
def Replayed (c : Setup) (h : List Event) : Prop :=
  parseMode c.config.acceptMode = .traceReplay ∧ ∀ x ∈ h, x.replayed c.acceptRows = true

/-- The pre-verification of an accepted draft raises the ratio from 5/6 to 6/7. -/
theorem preVerify_raises_ratio : ¬ ∀ (c : Setup) (f₁ f₂ : Flags) (s₁ s₂ : SpecDecodeScheduler)
    (h₁ h₂ : List Event), (c.withFlags f₁).Reach s₁ h₁ → (c.withFlags f₂).Reach s₂ h₂ →
    s₁.busy = false → s₂.busy = false → Replayed c h₁ → Replayed c h₂ →
    s₁.acceptRatio = s₂.acceptRatio := by
  intro hclaim
  obtain ⟨s₁, h₁, hr₁, hfacts₁⟩ := Setup.exists_reach (c := replayedSetup.withFlags allOff)
    (l := promptCalls) (p := fun r => decide (r.1.acceptRatio = 5 / 6 ∧ r.1.busy = false ∧
      ∀ x ∈ r.2, x.replayed replayedSetup.acceptRows = true)) (by decide +kernel)
  obtain ⟨s₂, h₂, hr₂, hfacts₂⟩ := Setup.exists_reach (c := replayedSetup.withFlags allOn)
    (l := slowCalls) (p := fun r => decide (r.1.acceptRatio = 6 / 7 ∧ r.1.busy = false ∧
      ∀ x ∈ r.2, x.replayed replayedSetup.acceptRows = true)) (by decide +kernel)
  obtain ⟨hratio₁, hend₁, hrows₁⟩ := of_decide_eq_true hfacts₁
  obtain ⟨hratio₂, hend₂, hrows₂⟩ := of_decide_eq_true hfacts₂
  have hmode : parseMode replayedSetup.config.acceptMode = .traceReplay := by decide +kernel
  have hsame := hclaim replayedSetup allOff allOn s₁ s₂ h₁ h₂ hr₁ hr₂ hend₁ hend₂ ⟨hmode, hrows₁⟩
    ⟨hmode, hrows₂⟩
  rw [hratio₁, hratio₂] at hsame
  norm_num at hsame

end

end Ahasd
