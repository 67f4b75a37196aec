/-
  File:      Ahasd/Scheduler/Predictor.lean
  Subject:   THE PREDICTOR OVER A RUN: what the history of a run makes of EDC's tables.

  All requests share one EDC. Its tables are a fold over the history: a planned round adds its
  predictions and its buckets, a finished verification (a PRE_VERIFY or a VERIFY, of whatever
  request) trains what is pending and commits or rolls back.

  * `PredictorView`: the tables as an observer sees them, and what each event makes of them;
  * `Shows`, `Setup.Reach.shows`: the tables of the scheduler's EDC are this fold over every run;
  * `verification_trains_pending`: what one finished verification trains, with any requests active;
  * `round_training`, `round_history`: what a round of a single request trains and commits.
-/
import Mathlib.Data.List.Induction
import Ahasd.Scheduler.Rounds

namespace Ahasd

open Std Transition OrderedMap CircularLog

/-! ## 1. The predictor as an observer sees it -/

/-- The task is a verification, the round's last one or not. -/
def LangStepEvent.Verifies (e : LangStepEvent) : Prop :=
  e.taskType = .verify ∨ e.taskType = .preVerify

instance (e : LangStepEvent) : Decidable e.Verifies :=
  inferInstanceAs (Decidable (_ ∨ _))

/-- The verification accepted everything it checked. -/
def LangStepEvent.fullyAccepted (e : LangStepEvent) : Bool :=
  e.acceptedLength == max 1 e.draftLength

/-- The verifications a history finished. -/
def verifications (h : List Event) : List LangStepEvent :=
  h.filterMap fun
    | .finished e => if e.Verifies then some e else none
    | _ => none

/-- The tables of the predictor. -/
structure PredictorView where
  bucket : ℚ → Nat
  pht : List CounterState
  pending : List (Nat × Bool)
  recent : Table Nat
  committed : Table Nat

/-- What an observer sees of EDC. -/
def EDC.view (p : EDC) : PredictorView where
  bucket := p.entropyToBucket
  pht := p.pht
  pending := p.pending
  recent := p.history
  committed := p.committed

namespace PredictorView

/-- A planned round: its predictions wait, its buckets enter the recent history. -/
def plan (v : PredictorView) (hint : ℚ) (preds : List (Nat × Bool)) : PredictorView :=
  { v with
    pending := v.pending ++ preds
    recent := v.recent.replay (List.replicate preds.length (v.bucket hint)) }

/-- A finished verification: the pending predictions are trained, the history is committed or rolled
    back. -/
def verified (v : PredictorView) (full : Bool) (accepted : Nat) : PredictorView :=
  let history := if full then v.recent else v.committed
  { v with
    pht := (EDC.outcomes full accepted v.pending).foldl EDC.trainCounter v.pht
    pending := []
    recent := history
    committed := history }

/-- What an event makes of the tables. -/
def observe (v : PredictorView) : Event → PredictorView
  | .planned _ _ hint preds => v.plan hint preds
  | .finished e => if e.Verifies then v.verified e.fullyAccepted e.acceptedLength else v
  | .issued _ _ => v

/-- The counters an event moves, each with its outcome. -/
def trained (v : PredictorView) : Event → List (Nat × Bool)
  | .finished e =>
      if e.Verifies then EDC.outcomes e.fullyAccepted e.acceptedLength v.pending else []
  | .planned _ _ _ _ | .issued _ _ => []

/-- The trainings of a history. -/
def trainings (v : PredictorView) : List Event → List (Nat × Bool)
  | [] => []
  | x :: h => v.trained x ++ (v.observe x).trainings h

/-- **The counters are moved by the trainings, and by nothing else.** -/
theorem foldl_pht (v : PredictorView) (h : List Event) :
    (h.foldl observe v).pht = (v.trainings h).foldl EDC.trainCounter v.pht := by
  induction h generalizing v with
  | nil => rfl
  | cons x h ih =>
      have hstep : (v.observe x).pht = (v.trained x).foldl EDC.trainCounter v.pht := by
        cases x with
        | planned id n hint preds => rfl
        | issued built info => rfl
        | finished e =>
            unfold observe trained
            by_cases hv : e.Verifies <;> simp [hv, verified]
      rw [trainings, List.foldl_append, ← hstep]
      exact ih _

theorem trainings_finished (v : PredictorView) {e : LangStepEvent} (hv : e.Verifies)
    (h : List Event) : v.trainings (.finished e :: h) =
      EDC.outcomes e.fullyAccepted e.acceptedLength v.pending ++
        (v.verified e.fullyAccepted e.acceptedLength).trainings h := by
  have htrained : v.trained (.finished e) = _ := if_pos hv
  have hobserve : v.observe (.finished e) = _ := if_pos hv
  rw [trainings, htrained, hobserve]

theorem trainings_other (v : PredictorView) {e : LangStepEvent} (hv : ¬e.Verifies)
    (h : List Event) : v.trainings (.finished e :: h) = v.trainings h := by
  have htrained : v.trained (.finished e) = [] := if_neg hv
  have hobserve : v.observe (.finished e) = v := if_neg hv
  rw [trainings, htrained, hobserve, List.nil_append]

/-- With nothing to train and no round planned there are no trainings. -/
theorem trainings_nil {v : PredictorView} (hpending : v.pending = []) {h : List Event}
    (hplan : ∀ id n hint preds, .planned id n hint preds ∉ h) : v.trainings h = [] := by
  induction h generalizing v with
  | nil => rfl
  | cons x h ih =>
      have hrest : ∀ id n hint preds, .planned id n hint preds ∉ h := fun id n hint preds hx =>
        hplan id n hint preds (List.mem_cons_of_mem x hx)
      cases x with
      | planned id n hint preds => exact absurd List.mem_cons_self (hplan id n hint preds)
      | issued built info => exact ih hpending hrest
      | finished e =>
          by_cases hv : e.Verifies
          · rw [trainings_finished v hv, hpending, ih rfl hrest]
            rfl
          · rw [trainings_other v hv, ih hpending hrest]

/-- **Where no round is planned, the first verification trains all that waits.** -/
theorem trainings_verifications (v : PredictorView) {h : List Event}
    (hplan : ∀ id n hint preds, .planned id n hint preds ∉ h) : v.trainings h =
      ((verifications h).head?.map fun e =>
        EDC.outcomes e.fullyAccepted e.acceptedLength v.pending).getD [] := by
  induction h with
  | nil => rfl
  | cons x h ih =>
      have hrest : ∀ id n hint preds, .planned id n hint preds ∉ h := fun id n hint preds hx =>
        hplan id n hint preds (List.mem_cons_of_mem x hx)
      cases x with
      | planned id n hint preds => exact absurd List.mem_cons_self (hplan id n hint preds)
      | issued built info => exact ih hrest
      | finished e =>
          by_cases hv : e.Verifies
          · have hhead : verifications (.finished e :: h) = e :: verifications h := by
              simp [verifications, hv]
            rw [trainings_finished v hv, trainings_nil rfl hrest, hhead, List.append_nil]
            rfl
          · have hhead : verifications (.finished e :: h) = verifications h := by
              simp [verifications, hv]
            rw [trainings_other v hv, hhead]
            exact ih hrest

/-- Nothing waits, and the two histories agree. -/
structure Idle (v : PredictorView) : Prop where
  pending : v.pending = []
  agree : v.recent = v.committed

theorem verified_idle (v : PredictorView) (full : Bool) (accepted : Nat) :
    (v.verified full accepted).Idle :=
  ⟨rfl, rfl⟩

/-- **A verification with nothing to train changes nothing.** -/
theorem Idle.verified_eq {v : PredictorView} (h : v.Idle) (full : Bool) (accepted : Nat) :
    v.verified full accepted = v := by
  have hhistory : (if full = true then v.recent else v.committed) = v.committed := by
    rw [h.agree, ite_self]
  unfold verified
  rw [h.pending, hhistory]
  obtain ⟨bucket, pht, pending, recent, committed⟩ := v
  obtain ⟨hpending, hagree⟩ := h
  dsimp only at hpending hagree
  rw [hpending, hagree]
  rfl

end PredictorView

namespace EDC

/-- **Polls add predictions and buckets.** -/
theorem Polled.view {hint : ℚ} {p p' : EDC} {preds : List (Nat × Bool)}
    (h : Polled hint p p' preds) (hs : p.Sized) : p'.view = p.view.plan hint preds := by
  have hbucket : p'.entropyToBucket = p.entropyToBucket := by
    funext entropy
    unfold entropyToBucket
    rw [h.hMax]
  unfold EDC.view PredictorView.plan
  rw [hbucket, h.pht, h.pending hs, h.history hs, h.committed]

/-- **An update is a verification.** -/
theorem update_view (p : EDC) (full : Bool) (accepted : Nat) :
    (p.updateOnVerification full accepted).view = p.view.verified full accepted := by
  have hbucket : (p.updateOnVerification full accepted).entropyToBucket = p.entropyToBucket := by
    funext entropy
    unfold entropyToBucket
    rw [update_hMax]
  unfold EDC.view PredictorView.verified
  rw [hbucket, update_pht, update_pending, update_committed, update_history]

end EDC

namespace SpecDecodeScheduler

/-! ## 2. The scheduler's EDC is the fold -/

/-- The scheduler's calls reach an EDC with these tables. -/
def Shows (s : SpecDecodeScheduler) (v : PredictorView) : Prop :=
  ∃ p, s.predictor = some p ∧ p.Sized ∧ p.view = v

/-- A step that leaves the predictor alone. -/
theorem Shows.frame {s s' : SpecDecodeScheduler} {v : PredictorView} (V : Shows s v)
    {f : AHASDIntegration → AHASDIntegration} (hahasd : s'.ahasd = s.ahasd.map f)
    (hf : ∀ a, (f a).predictor = a.predictor) : Shows s' v := by
  obtain ⟨p, hp, hsized, hview⟩ := V
  refine ⟨p, ?_, hsized, hview⟩
  unfold predictor at hp ⊢
  rw [hahasd, Option.bind_map, ← hp]
  exact Option.bind_congr fun a _ => hf a

theorem Shows.plan {s : SpecDecodeScheduler} {v : PredictorView} (V : Shows s v)
    (req : LangRequest) : Shows (s.planRound req).2
      (v.plan (computeEntropyHint req)
        ((s.planRound req).2.pendingPredictions.drop s.pendingPredictions.length)) := by
  obtain ⟨p, hp, hsized, rfl⟩ := V
  obtain ⟨a, ha, hap⟩ := Option.bind_eq_some_iff.mp hp
  obtain ⟨ssrc, deferred, heq⟩ := s.planRound_eq req
  have hplan := s.planAhasd_predictor req a
  rw [hap] at hplan
  obtain ⟨p', preds, hp', hpolled⟩ := hplan
  have hpredictor : (s.planRound req).2.predictor = some p' := by
    unfold predictor
    rw [heq]
    dsimp only
    rw [ha]
    exact hp'
  have hpreds : (s.planRound req).2.pendingPredictions.drop s.pendingPredictions.length = preds := by
    unfold pendingPredictions
    rw [hpredictor, hp]
    show p'.pending.drop p.pending.length = preds
    rw [hpolled.pending hsized, List.drop_left]
  rw [hpreds]
  exact ⟨p', hpredictor, hpolled.sized hsized, hpolled.view hsized⟩

/-- The predictor after a completion. -/
theorem completed_predictor (s : SpecDecodeScheduler) (modelId : Nat) (req : LangRequest)
    (info : ModelMeta) : (s.completed modelId req info).2.predictor =
      if (s.completed modelId req info).1.Verifies then
        s.predictor.map (·.updateOnVerification (s.completed modelId req info).1.fullyAccepted
          (s.completed modelId req info).1.acceptedLength)
      else s.predictor := by
  obtain ⟨_, hety, _, helength, _, haccepted, _⟩ := s.completed_event modelId req info
  have hkind : (s.completed modelId req info).1.Verifies ↔
      info.taskType = .verify ∨ info.taskType = .preVerify := by
    unfold LangStepEvent.Verifies
    rw [hety]
  unfold predictor LangStepEvent.fullyAccepted
  rw [completed_ahasd, Option.bind_map, helength]
  split
  · next hv =>
      rw [haccepted (hkind.mp hv), Option.map_bind]
      exact Option.bind_congr fun a _ =>
        (s.taskAhasd_predictor req info a).trans (if_pos (hkind.mp hv))
  · next hv =>
      exact Option.bind_congr fun a _ =>
        (s.taskAhasd_predictor req info a).trans (if_neg fun h => hv (hkind.mpr h))

theorem Shows.finish {s : SpecDecodeScheduler} {v : PredictorView} (V : Shows s v) (modelId : Nat)
    (req : LangRequest) (info : ModelMeta) : Shows (s.completed modelId req info).2
      (v.observe (.finished (s.completed modelId req info).1)) := by
  obtain ⟨p, hp, hsized, rfl⟩ := V
  have hpredictor := s.completed_predictor modelId req info
  rw [hp] at hpredictor
  unfold PredictorView.observe
  dsimp only
  split at hpredictor
  · next hv =>
      rw [if_pos hv]
      exact ⟨_, hpredictor, p.update_sized _ _ hsized, p.update_view _ _⟩
  · next hv =>
      rw [if_neg hv]
      exact ⟨p, hpredictor, hsized, rfl⟩

/-- **Every move is what its events show.** -/
theorem Shows.move {s s' : SpecDecodeScheduler} {v : PredictorView} {e : List Event}
    (V : Shows s v) (hm : Move s s' e) : Shows s' (e.foldl PredictorView.observe v) := by
  cases hm with
  | minor s' hm =>
      obtain ⟨tvc, htvc, hsame⟩ := hm.ahasd
      exact V.frame htvc fun a => (hsame a).2.2
  | admitOne r rest hq => exact V
  | plan req hact hrun hphase => exact V.plan req
  | issue s₁ req req' model seqLength info built g hact hrun hprep hgen =>
      obtain ⟨tvc, htvc, hsame⟩ := hprep.ahasd_map
      exact V.frame htvc fun a => (hsame a).2.2
  | finish modelId info req hinfo hid hact htask => exact V.finish modelId req info

/-- Without a predictor there is none later. -/
theorem Move.predictor_none {s s' : SpecDecodeScheduler} {e : List Event} (hm : Move s s' e)
    (hp : s.predictor = none) : s'.predictor = none := by
  have hframe : ∀ {f : AHASDIntegration → AHASDIntegration}, s'.ahasd = s.ahasd.map f →
      (∀ a, a.predictor = none → (f a).predictor = none) → s'.predictor = none := by
    intro f hahasd hf
    unfold predictor at hp ⊢
    rw [hahasd, Option.bind_map]
    cases ha : s.ahasd with
    | none => rfl
    | some a =>
        rw [ha] at hp
        exact hf a hp
  cases hm with
  | minor s' hm =>
      obtain ⟨tvc, htvc, hsame⟩ := hm.ahasd
      exact hframe htvc fun a ha => (hsame a).2.2.trans ha
  | admitOne r rest hq => exact hp
  | plan req hact hrun hphase =>
      obtain ⟨ssrc, deferred, heq⟩ := s.planRound_eq req
      refine hframe (f := s.planAhasd req) (by rw [heq]) fun a ha => ?_
      have hplan := s.planAhasd_predictor req a
      rw [ha] at hplan
      exact hplan
  | issue s₁ req req' model seqLength info built g hact hrun hprep hgen =>
      obtain ⟨tvc, htvc, hsame⟩ := hprep.ahasd_map
      exact hframe htvc fun a ha => (hsame a).2.2.trans ha
  | finish modelId info req hinfo hid hact htask =>
      rw [s.completed_predictor modelId req info, hp]
      exact ite_self none

/-! ## 3. Between rounds -/

/-- With no request inside a round, nothing waits and the histories agree. -/
def RestsIdle (s : SpecDecodeScheduler) (v : PredictorView) : Prop :=
  (∀ (id : Nat) (r : LangRequest), s.activeRequests[id]? = some r → ¬ r.InRound) → v.Idle

/-- **Every move keeps this.** -/
theorem RestsIdle.move {s s' : SpecDecodeScheduler} {v : PredictorView} {e : List Event}
    (I : ProtocolOk s) (R : RestsIdle s v) (hm : Move s s' e) :
    RestsIdle s' (e.foldl PredictorView.observe v) := by
  intro hquiet
  cases hm with
  | minor s' hm => exact R (hm.active ▸ hquiet)
  | admitOne r rest hq =>
      refine R fun id q hact => hquiet id q ?_
      rw [s.admit_lookup r rest, if_neg]
      · exact hact
      · intro heq
        rw [heq, I.admit_fresh hq] at hact
        cases hact
  | plan req hact hrun hphase =>
      have hin : (s.plannedRequest req).InRound := .inl rfl
      exact absurd hin (hquiet req.requestId _ (by rw [s.planRound_lookup req, if_pos rfl]))
  | issue s₁ req req' model seqLength info built g hact hrun hprep hgen =>
      obtain ⟨_, hactive⟩ := (hprep.launched hgen).active
      refine R fun id q hq hin => ?_
      by_cases hid : id = req.requestId
      · rw [hid, hact, Option.some.injEq] at hq
        subst hq
        have hout := hquiet id _ ((hactive id).trans (if_pos hid))
        exact hout hin
      · exact hquiet id q (by rw [hactive, if_neg hid]; exact hq) hin
  | finish modelId info req hinfo hid hact htask =>
      obtain ⟨_, hety, _⟩ := s.completed_event modelId req info
      have hactive := s.completed_activeRequests modelId req info hid hact
      show (v.observe (.finished _)).Idle
      unfold PredictorView.observe
      dsimp only
      split
      · exact v.verified_idle _ _
      · next hv =>
          refine R fun id q hq hin => ?_
          by_cases heq : id = req.requestId
          · rw [heq, hact, Option.some.injEq] at hq
            subst hq
            -- inside a round, a task that verifies nothing leaves its request inside
            cases hafter : s.afterTask req info with
            | none =>
                rw [hafter] at htask
                cases htask with
                | retire hty => exact hv (.inl (hety.trans hty))
            | some r =>
                have hout := hquiet id { r with running := false }
                  (by rw [hactive, if_pos heq, hafter]; rfl)
                rw [hafter] at htask
                cases htask with
                | prompt hty hphase => exact LangRequest.not_inRound (.inl hphase) hin
                | draft hty => exact hout (s.draftedRequest_inRound req)
                | verify hty => exact hv (.inl (hety.trans hty))
                | preVerify hty => exact hv (.inr (hety.trans hty))
          · exact hquiet id q (by rw [hactive, if_neg heq]; exact hq) hin

end SpecDecodeScheduler

/-! ## 4. Every run -/

section

open SpecDecodeScheduler

variable {c : Setup} {s : SpecDecodeScheduler} {h : List Event}

/-- A new coordinator's predictor is idle. -/
theorem Setup.ahasd_predictor {p : EDC} (hp : c.ahasd.bind AHASDIntegration.predictor = some p) :
    p.Sized ∧ p.view.Idle := by
  unfold Setup.ahasd at hp
  split at hp
  · rw [Option.bind_some, AHASDIntegration.new_predictor] at hp
    split at hp
    · cases hp
      exact ⟨EDC.new_sized _ _ _, rfl, rfl⟩
    · cases hp
  · cases hp

/-- **The tables of a run are the fold over its history**, from an idle predictor; with no request
    inside a round they are idle. -/
theorem Setup.Reach.shows (ht : c.targetModel.isSome = true) (hr : c.Reach s h) {p : EDC}
    (hp : s.predictor = some p) : ∃ v₀ : PredictorView, v₀.Idle ∧
      Shows s (h.foldl PredictorView.observe v₀) ∧
      RestsIdle s (h.foldl PredictorView.observe v₀) := by
  obtain ⟨s₀, hstart, hexec⟩ := hr
  have F := Setup.start_fresh hstart
  have hpredictor : s₀.predictor = c.ahasd.bind AHASDIntegration.predictor := by
    unfold predictor
    rw [F.ahasd]
  cases hp₀ : s₀.predictor with
  | none =>
      obtain ⟨_, _, hnone⟩ := exec_moves (P := fun s _ => s.predictor = none)
        (fun s h s' e _ _ hnone hm => hm.predictor_none hnone) (F.protocolOk ht) F.configured hp₀
        hexec
      rw [hp] at hnone
      cases hnone
  | some p₀ =>
      obtain ⟨hsized, hidle⟩ := Setup.ahasd_predictor (hpredictor ▸ hp₀)
      obtain ⟨_, _, hshows⟩ := exec_moves
        (P := fun s h => Shows s (h.foldl PredictorView.observe p₀.view) ∧
          RestsIdle s (h.foldl PredictorView.observe p₀.view))
        (fun s h s' e I _ hP hm => by
          rw [List.foldl_append]
          exact ⟨hP.1.move hm, hP.2.move I hm⟩)
        (F.protocolOk ht) F.configured ⟨⟨p₀, hp₀, hsized, rfl⟩, fun _ => hidle⟩ hexec
      exact ⟨p₀.view, hidle, hshows⟩

/-- The predictions that wait for training, event by event. -/
def awaitTraining (waiting : List (Nat × Bool)) : Event → List (Nat × Bool)
  | .planned _ _ _ preds => waiting ++ preds
  | .finished e => if e.Verifies then [] else waiting
  | .issued _ _ => waiting

/-- The predictions of the rounds planned, for any request, since a verification finished last. -/
def plannedSince (h : List Event) : List (Nat × Bool) :=
  h.foldl awaitTraining []

theorem PredictorView.observe_pending (v : PredictorView) (x : Event) :
    (v.observe x).pending = awaitTraining v.pending x := by
  cases x with
  | planned id n hint preds => rfl
  | issued built info => rfl
  | finished e =>
      unfold PredictorView.observe awaitTraining
      dsimp only
      split <;> rfl

/-- **What a finished verification trains**, with any number of requests active: the predictions of
    all rounds planned since a verification finished last, by what the finishing request accepted.
    Nothing waits afterwards, and the shared history is committed or rolled back. -/
theorem verification_trains_pending (hr : c.Reach s h) {act : Act} {s' : SpecDecodeScheduler}
    (hs : machine.step s act = some s') {e : LangStepEvent}
    (he : .finished e ∈ machine.obs s act s') (hv : e.Verifies) {p : EDC}
    (hp : s.predictor = some p) :
    ∃ p', s'.predictor = some p' ∧ p.pending = plannedSince h ∧
      p'.pht = (EDC.outcomes e.fullyAccepted e.acceptedLength (plannedSince h)).foldl
        EDC.trainCounter p.pht ∧
      p'.pending = [] ∧ p'.history = (if e.fullyAccepted then p.history else p.committed) ∧
      p'.committed = p'.history ∧ p'.llr = 0 := by
  have hspec : e.taskType ≠ .autoreg := by
    rcases hv with hty | hty <;> rw [hty] <;> simp
  obtain ⟨ht, mid, info, req, _, _, _, rfl, rfl⟩ := hr.finished hs he hspec
  obtain ⟨v₀, hidle, ⟨p₁, hp₁, _, hview⟩, _⟩ := hr.shows ht hp
  rw [hp, Option.some.injEq] at hp₁
  subst hp₁
  have hpending : p.pending = plannedSince h := by
    have hfold : h.foldl awaitTraining v₀.pending = (h.foldl PredictorView.observe v₀).pending :=
      List.foldl_hom PredictorView.pending fun v x => (v.observe_pending x).symm
    rw [hidle.pending, ← hview] at hfold
    exact hfold.symm
  have hpredictor := s.completed_predictor mid req info
  rw [if_pos hv, hp] at hpredictor
  refine ⟨_, hpredictor, hpending, ?_, p.update_pending _ _, p.update_history _ _,
    p.update_committed _ _, p.update_llr _ _⟩
  rw [p.update_pht, hpending]

/-- The first VERIFY of a request trains its predictions. -/
theorem verification_trains_pending_sample : ∃ s h s' e p p',
    (sampleSetup [⟨0, 4, 9, 1⟩] [(⟨0, 1⟩, ⟨3, 0, 3⟩)]).Reach s h ∧
      machine.step s (.finishModel 6) = some s' ∧
      .finished e ∈ machine.obs s (.finishModel 6) s' ∧ s.predictor = some p ∧
      s'.predictor = some p' ∧ p'.pht =
        (EDC.outcomes e.fullyAccepted e.acceptedLength (plannedSince h)).foldl
          EDC.trainCounter p.pht := by
  obtain ⟨s, h, s', hr, hs, hfacts⟩ := Setup.exists_step
    (c := sampleSetup [⟨0, 4, 9, 1⟩] [(⟨0, 1⟩, ⟨3, 0, 3⟩)])
    (l := finishing [2, 3, 4, 5] ++ [.cycle]) (a := .finishModel 6)
    (p := fun s _ s' => s.predictor.isSome && (machine.obs s (.finishModel 6) s').any
      (Event.finishedWith fun e => e.Verifies)) (by decide +kernel)
  rw [Bool.and_eq_true] at hfacts
  obtain ⟨p, hp⟩ := Option.isSome_iff_exists.mp hfacts.1
  obtain ⟨e, hx, hv⟩ := Event.exists_finished hfacts.2
  obtain ⟨p', hp', _, hpht, _⟩ := verification_trains_pending hr hs hx (of_decide_eq_true hv) hp
  exact ⟨s, h, s', e, p, p', hr, hs, hx, hp, hp', hpht⟩

/-- The calls that plan a round of each of two requests, up to the VERIFY of the first. -/
def twoRoundsCalls : List Act :=
  [.cycle, .finishModel 4, .cycle, .cycle, .finishModel 5, .finishModel 6, .cycle, .cycle,
    .finishModel 7, .cycle, .finishModel 9, .cycle]

/-- Two requests with planned rounds: the VERIFY of the first leaves no prediction of the second,
    which has not been verified. -/
theorem verification_trains_other_request : ¬ ∀ s h s' e id n hint preds p',
    (sampleSetup [⟨0, 4, 9, 1⟩, ⟨0, 4, 9, 1⟩] [(⟨0, 1⟩, ⟨3, 0, 3⟩)]).Reach s h →
    machine.step s (.finishModel 10) = some s' →
    .finished e ∈ machine.obs s (.finishModel 10) s' → e.taskType = .verify →
    .planned id n hint preds ∈ h → id ≠ e.requestId →
    (∀ e', .finished e' ∈ h → e'.requestId = id → ¬ e'.Verifies) →
    s'.predictor = some p' → ∀ x ∈ preds, x ∈ p'.pending := by
  intro hclaim
  obtain ⟨s, h, s', hr, hs, hfacts⟩ := Setup.exists_step
    (c := sampleSetup [⟨0, 4, 9, 1⟩, ⟨0, 4, 9, 1⟩] [(⟨0, 1⟩, ⟨3, 0, 3⟩)])
    (l := twoRoundsCalls) (a := .finishModel 10)
    (p := fun s h s' => s'.predictor.any (fun p' : EDC => p'.pending = []) &&
      ((machine.obs s (.finishModel 10) s').any (Event.finishedWith fun e =>
        e.taskType = .verify ∧ e.requestId = 0) &&
      (h.any (Event.plannedWith fun id _ _ preds => id = 1 ∧ preds ≠ []) &&
      !h.any (Event.finishedWith fun e => e.requestId = 1 ∧ e.Verifies)))) (by decide +kernel)
  simp only [Bool.and_eq_true] at hfacts
  obtain ⟨hpending, hfinished, hplanned, hnone⟩ := hfacts
  obtain ⟨p', hp', hempty⟩ := (Option.any_eq_true _ _).mp hpending
  obtain ⟨e, hx, hverify⟩ := Event.exists_finished hfinished
  obtain ⟨id, n, hint, preds, hy, hround⟩ := Event.exists_planned hplanned
  obtain ⟨hverify, hfirst⟩ := of_decide_eq_true hverify
  obtain ⟨rfl, hpreds⟩ := of_decide_eq_true hround
  have hunverified : ∀ e', .finished e' ∈ h → e'.requestId = 1 → ¬ e'.Verifies := by
    intro e' he' hid hv
    rw [Bool.not_eq_true'] at hnone
    exact List.any_eq_false.mp hnone _ he' (decide_eq_true ⟨hid, hv⟩)
  have hwaits := hclaim s h s' e 1 n hint preds p' hr hs hx hverify hy
    (by rw [hfirst]; decide) hunverified hp'
  obtain ⟨q, hq⟩ := List.exists_mem_of_ne_nil _ hpreds
  rw [of_decide_eq_true hempty] at hwaits
  exact List.not_mem_nil (hwaits q hq)

end

/-! ## 5. The rounds of a single request -/

/-- The round that is planned and not verified. -/
def trackRound (o : Option (Nat × Nat)) : Event → Option (Nat × Nat)
  | .planned id n _ _ => some (id, n)
  | .finished e => if e.taskType = .verify then none else o
  | .issued _ _ => o

/-- An event in its place: a round is planned when none is open, and the open round is the one that
    is verified. -/
def InPlace (o : Option (Nat × Nat)) : Event → Prop
  | .planned _ _ _ _ => o = none
  | .finished e => e.taskType = .verify → o = some (e.requestId, e.specRound)
  | .issued _ _ => True

/-- All events of a history are in their places. -/
def Ordered : Option (Nat × Nat) → List Event → Prop
  | _, [] => True
  | o, x :: h => InPlace o x ∧ Ordered (trackRound o x) h

theorem Ordered.append_iff (o : Option (Nat × Nat)) (h h' : List Event) :
    Ordered o (h ++ h') ↔ Ordered o h ∧ Ordered (h.foldl trackRound o) h' := by
  induction h generalizing o with
  | nil => simp [Ordered]
  | cons x h ih =>
      show InPlace o x ∧ Ordered (trackRound o x) (h ++ h') ↔ _
      rw [ih]
      exact and_assoc.symm

/-- The last event of an ordered history, put in its place. -/
theorem Ordered.snoc {o : Option (Nat × Nat)} {h : List Event} {x : Event} (ho : Ordered o h)
    (hx : InPlace (h.foldl trackRound o) x) : Ordered o (h ++ [x]) :=
  (Ordered.append_iff o h [x]).mpr ⟨ho, hx, trivial⟩

namespace SpecDecodeScheduler

/-- **The rounds of a single request follow each other**: the history is in order, and a round is
    open exactly when the request is inside it. -/
structure SingleOk (s : SpecDecodeScheduler) (h : List Event) : Prop where
  only : ∀ (id : Nat) (r : LangRequest), s.activeRequests[id]? = some r → id = 0
  opened : ∀ (id : Nat) (r : LangRequest), s.activeRequests[id]? = some r → r.InRound →
    h.foldl trackRound none = some (id, r.specRound)
  closed : (∀ (id : Nat) (r : LangRequest), s.activeRequests[id]? = some r → ¬ r.InRound) →
    h.foldl trackRound none = none
  ordered : Ordered none h

/-- The only active request. -/
theorem SingleOk.eq {s : SpecDecodeScheduler} {h : List Event} (S : SingleOk s h) {id id' : Nat}
    {r r' : LangRequest} (hr : s.activeRequests[id]? = some r)
    (hr' : s.activeRequests[id']? = some r') : r = r' := by
  obtain rfl := S.only id r hr
  obtain rfl := S.only id' r' hr'
  exact Option.some.inj (hr.symm.trans hr')

/-- A single request stays the only one. -/
theorem Move.only {c : Setup} {s s' : SpecDecodeScheduler} {e : List Event}
    (hone : c.rows.length = 1) (C : Configured c s)
    (h : ∀ (id : Nat) (r : LangRequest), s.activeRequests[id]? = some r → id = 0)
    (hm : Move s s' e) (id : Nat) (r : LangRequest) (hr : s'.activeRequests[id]? = some r) :
    id = 0 := by
  cases hm with
  | minor s' hm => exact h id r (hm.active ▸ hr)
  | admitOne q rest hq =>
      rw [s.admit_lookup q rest] at hr
      split at hr
      · obtain ⟨_, row, hrow, _⟩ := C.queued q (hq ▸ List.mem_cons_self)
        have hlt := (List.getElem?_eq_some_iff.mp hrow).1
        omega
      · exact h id r hr
  | plan req hact hrun hphase =>
      rw [s.planRound_lookup req] at hr
      split at hr
      · next heq => exact heq.trans (h _ req hact)
      · exact h id r hr
  | issue s₁ req req' model seqLength info built g hact hrun hprep hgen =>
      obtain ⟨_, hactive⟩ := (hprep.launched hgen).active
      rw [hactive] at hr
      split at hr
      · next heq => exact heq.trans (h _ req hact)
      · exact h id r hr
  | finish modelId info req hinfo hid hact htask =>
      rw [s.completed_activeRequests modelId req info hid hact] at hr
      split at hr
      · next heq => exact heq.trans (h _ req hact)
      · exact h id r hr

/-- A step that shows nothing of the rounds and keeps which requests are inside one. -/
theorem SingleOk.frame {s s' : SpecDecodeScheduler} {h e : List Event} (S : SingleOk s h)
    (honly : ∀ (id : Nat) (r : LangRequest), s'.activeRequests[id]? = some r → id = 0)
    (hopen : (h ++ e).foldl trackRound none = h.foldl trackRound none)
    (hordered : Ordered none (h ++ e))
    (hin : ∀ (id : Nat) (r' : LangRequest), s'.activeRequests[id]? = some r' → r'.InRound →
      ∃ r : LangRequest, s.activeRequests[id]? = some r ∧ r.InRound ∧ r.specRound = r'.specRound)
    (hout : (∀ (id : Nat) (r : LangRequest), s'.activeRequests[id]? = some r → ¬ r.InRound) →
      ∀ (id : Nat) (r : LangRequest), s.activeRequests[id]? = some r → ¬ r.InRound) :
    SingleOk s' (h ++ e) := by
  refine ⟨honly, fun id r' hr' hin' => ?_, fun hquiet => ?_, hordered⟩
  · obtain ⟨r, hr, hinr, hround⟩ := hin id r' hr' hin'
    rw [hopen, ← hround]
    exact S.opened id r hr hinr
  · rw [hopen]
    exact S.closed (hout hquiet)

theorem SingleOk.finish {s : SpecDecodeScheduler} {h : List Event} (S : SingleOk s h)
    {modelId : Nat} {info : ModelMeta} {req : LangRequest} (hid : info.requestId = req.requestId)
    (hact : s.activeRequests[req.requestId]? = some req)
    (htask : TaskDone s req info (s.afterTask req info))
    (honly : ∀ (id : Nat) (r : LangRequest),
      (s.completed modelId req info).2.activeRequests[id]? = some r → id = 0) :
    SingleOk (s.completed modelId req info).2
      (h ++ [.finished (s.completed modelId req info).1]) := by
  obtain ⟨heid, hety, heround, _⟩ := s.completed_event modelId req info
  have hactive := s.completed_activeRequests modelId req info hid hact
  generalize (s.completed modelId req info).1 = e at *
  generalize (s.completed modelId req info).2 = s' at *
  by_cases hverify : info.taskType = .verify
  · have hopen : (h ++ [Event.finished e]).foldl trackRound none = none := by
      rw [List.foldl_append]
      exact if_pos (hety.trans hverify)
    have hawait : req.InRound ∧ info.verifyRound = req.specRound := by
      rcases htask.round with ⟨hty, _⟩ | ⟨hround, _⟩
      · rw [hverify] at hty
        cases hty
      · refine ⟨?_, hround⟩
        generalize s.afterTask req info = after at htask
        cases htask with
        | verify _ hphase => exact .inr hphase
        | retire _ hphase => exact .inr hphase
        | prompt hty => rw [hverify] at hty; cases hty
        | draft hty => rw [hverify] at hty; cases hty
        | preVerify hty => rw [hverify] at hty; cases hty
    refine ⟨honly, fun id r hr hin => ?_, fun _ => hopen, S.ordered.snoc fun _ => ?_⟩
    · -- after the verification no request is inside a round
      have hzero := honly id r hr
      have hkey := S.only _ req hact
      rw [hactive, if_pos (hzero.trans hkey.symm)] at hr
      obtain ⟨after, hafter, rfl⟩ := Option.map_eq_some_iff.mp hr
      exact absurd hverify ((hafter ▸ htask).stays hin).2.1
    · rw [S.opened _ req hact hawait.1, heid, heround, hawait.2]
  · have hsame : (h ++ [Event.finished e]).foldl trackRound none = h.foldl trackRound none := by
      rw [List.foldl_append]
      exact if_neg fun hty => hverify (hety.symm.trans hty)
    refine S.frame honly hsame (S.ordered.snoc fun hty => absurd (hety.symm.trans hty) hverify)
      (fun id r' hr' hin' => ?_) fun hquiet id r hr hin => ?_
    · have hkey : id = req.requestId := (honly id r' hr').trans (S.only _ req hact).symm
      rw [hactive, if_pos hkey] at hr'
      obtain ⟨r, hafter, rfl⟩ := Option.map_eq_some_iff.mp hr'
      obtain ⟨hin, _, heq⟩ := (hafter ▸ htask).stays hin'
      refine ⟨req, hkey ▸ hact, hin, ?_⟩
      rcases heq with rfl | rfl <;> rfl
    · obtain rfl := S.eq hr hact
      cases hafter : s.afterTask r info with
      | none =>
          rw [hafter] at htask
          cases htask with
          | retire hty => exact hverify hty
      | some after =>
          have hout := hquiet r.requestId { after with running := false }
            (by rw [hactive, if_pos rfl, hafter]; rfl)
          rw [hafter] at htask
          cases htask with
          | prompt hty hphase => exact LangRequest.not_inRound (.inl hphase) hin
          | draft hty => exact hout (s.draftedRequest_inRound r)
          | verify hty => exact hverify hty
          | preVerify hty => exact hout hin

/-- **Every move keeps the order.** -/
theorem SingleOk.move {c : Setup} {s s' : SpecDecodeScheduler} {h e : List Event}
    (hone : c.rows.length = 1) (I : ProtocolOk s) (C : Configured c s) (S : SingleOk s h)
    (hm : Move s s' e) : SingleOk s' (h ++ e) := by
  have honly := hm.only hone C S.only
  cases hm with
  | minor s' hm =>
      refine S.frame honly (by rw [List.append_nil]) (by rw [List.append_nil]; exact S.ordered)
        (fun id r hr hin => ?_) fun hquiet => ?_
      · rw [hm.active] at hr
        exact ⟨r, hr, hin, rfl⟩
      · rw [hm.active] at hquiet
        exact hquiet
  | admitOne r rest hq =>
      have hactive := s.admit_lookup r rest
      refine S.frame honly (by rw [List.append_nil]) (by rw [List.append_nil]; exact S.ordered)
        (fun id q hact hin => ?_) fun hquiet id q hact => hquiet id q ?_
      · rw [hactive] at hact
        split at hact
        · cases hact
          exact absurd hin (LangRequest.not_inRound (.inl rfl))
        · exact ⟨q, hact, hin, rfl⟩
      · rw [hactive, if_neg]
        · exact hact
        · intro heq
          rw [heq, I.admit_fresh hq] at hact
          cases hact
  | plan req hact hrun hphase =>
      have hactive := s.planRound_lookup req
      have hnone : h.foldl trackRound none = none := by
        refine S.closed fun id r hr => ?_
        obtain rfl := S.eq hr hact
        exact LangRequest.not_inRound (.inr hphase)
      refine ⟨honly, fun id r hr hin => ?_, fun hquiet => ?_, S.ordered.snoc hnone⟩
      · have hkey : id = req.requestId := (honly id r hr).trans (S.only _ req hact).symm
        rw [hactive, if_pos hkey] at hr
        cases hr
        rw [List.foldl_append, hkey]
        rfl
      · have hin : (s.plannedRequest req).InRound := .inl rfl
        exact absurd hin (hquiet req.requestId _ (by rw [hactive, if_pos rfl]))
  | issue s₁ req req' model seqLength info built g hact hrun hprep hgen =>
      obtain ⟨_, hactive⟩ := (hprep.launched hgen).active
      refine S.frame honly List.foldl_append (S.ordered.snoc trivial) (fun id q hq hin => ?_)
        fun hquiet id q hq hin => ?_
      · rw [hactive] at hq
        split at hq
        · next heq =>
            cases hq
            exact ⟨req, heq ▸ hact, hin, rfl⟩
        · exact ⟨q, hq, hin, rfl⟩
      · obtain rfl := S.eq hq hact
        have hout := hquiet q.requestId _ ((hactive _).trans (if_pos rfl))
        exact hout hin
  | finish modelId info req hinfo hid hact htask => exact S.finish hid hact htask honly

end SpecDecodeScheduler

/-- Between two plannings only the verifications count. -/
theorem PredictorView.foldl_verifications (v : PredictorView) {h : List Event}
    (hplan : ∀ id n hint preds, .planned id n hint preds ∉ h) :
    h.foldl observe v =
      (verifications h).foldl (fun v e => v.verified e.fullyAccepted e.acceptedLength) v := by
  induction h generalizing v with
  | nil => rfl
  | cons x h ih =>
      have hrest := ih (v.observe x) fun id n hint preds hx =>
        hplan id n hint preds (List.mem_cons_of_mem x hx)
      refine hrest.trans ?_
      cases x with
      | planned id n hint preds => exact absurd List.mem_cons_self (hplan id n hint preds)
      | issued built info => rfl
      | finished e =>
          unfold observe verifications
          by_cases hv : e.Verifies <;> simp [hv]

/-- Verifications of an idle predictor change nothing. -/
theorem PredictorView.Idle.foldl_verified {v : PredictorView} (h : v.Idle)
    (es : List LangStepEvent) :
    es.foldl (fun v e => v.verified e.fullyAccepted e.acceptedLength) v = v := by
  induction es with
  | nil => rfl
  | cons e es ih =>
      show List.foldl _ (v.verified _ _) es = v
      rw [h.verified_eq]
      exact ih

/-- A VERIFY is the last verification of the history it ends. -/
theorem verifications_snoc {h : List Event} {e : LangStepEvent} (hverify : e.taskType = .verify) :
    verifications (h ++ [.finished e]) = verifications h ++ [e] := by
  unfold verifications
  rw [List.filterMap_append]
  simp [LangStepEvent.Verifies, hverify]

/-- The first verification of a round whose last one is `e`. -/
def firstVerification (mid : List Event) (e : LangStepEvent) : LangStepEvent :=
  (verifications mid).head?.getD e

/-- The open round stays open until a verification. -/
theorem foldl_trackRound_open {o : Nat × Nat} {h : List Event}
    (hplan : ∀ id n hint preds, .planned id n hint preds ∉ h)
    (hverify : ∀ e, .finished e ∈ h → e.taskType ≠ .verify) :
    h.foldl trackRound (some o) = some o := by
  induction h with
  | nil => rfl
  | cons x h ih =>
      have hrest := ih (fun id n hint preds hx => hplan id n hint preds (List.mem_cons_of_mem x hx))
        fun e he => hverify e (List.mem_cons_of_mem x he)
      cases x with
      | planned id n hint preds => exact absurd List.mem_cons_self (hplan id n hint preds)
      | issued built info => exact hrest
      | finished e =>
          show List.foldl _ (if e.taskType = .verify then none else some o) h = some o
          rw [if_neg (hverify e List.mem_cons_self)]
          exact hrest

/-- In an ordered history no round is planned while one is open. -/
theorem Ordered.noPlan {o : Nat × Nat} {h : List Event} (ho : Ordered (some o) h)
    (hverify : ∀ e, .finished e ∈ h → e.taskType ≠ .verify) :
    ∀ id n hint preds, .planned id n hint preds ∉ h := by
  induction h with
  | nil => exact fun _ _ _ _ => List.not_mem_nil
  | cons x h ih =>
      obtain ⟨hx, hrest⟩ := ho
      cases x with
      | planned id n hint preds => cases hx
      | issued built info =>
          intro id n hint preds hmem
          rcases List.mem_cons.mp hmem with heq | hmem
          · cases heq
          · exact ih hrest (fun e he => hverify e (List.mem_cons_of_mem _ he)) id n hint preds hmem
      | finished e =>
          intro id n hint preds hmem
          rcases List.mem_cons.mp hmem with heq | hmem
          · cases heq
          · have hsame : trackRound (some o) (.finished e) = some o :=
              if_neg (hverify e List.mem_cons_self)
            rw [hsame] at hrest
            exact ih hrest (fun e' he => hverify e' (List.mem_cons_of_mem _ he)) id n hint preds hmem

/-- A round of one segment. -/
structure RoundSegment where
  requestId : Nat
  specRound : Nat
  hint : ℚ
  preds : List (Nat × Bool)
  mid : List Event
  last : LangStepEvent

/-- The round a segment consists of, if it does. -/
def roundOf : List Event → Option RoundSegment
  | .planned id n hint preds :: rest =>
      match rest.getLast? with
      | some (.finished e) =>
          if e.taskType = .verify ∧ (rest.dropLast.all fun
              | .finished e => e.taskType ≠ .verify
              | _ => true) = true then
            some ⟨id, n, hint, preds, rest.dropLast, e⟩
          else none
      | _ => none
  | _ => none

theorem roundOf_spec {h : List Event} {x : RoundSegment} (hx : roundOf h = some x) :
    h = .planned x.requestId x.specRound x.hint x.preds :: x.mid ++ [.finished x.last] ∧
      x.last.taskType = .verify ∧ ∀ e, .finished e ∈ x.mid → e.taskType ≠ .verify := by
  unfold roundOf at hx
  split at hx
  · next id n hint preds rest =>
      split at hx
      · next e hlast =>
          split at hx
          · next hshape =>
              cases hx
              obtain ⟨hverify, hmid⟩ := hshape
              refine ⟨?_, hverify, fun e' he' => ?_⟩
              · show _ = .planned id n hint preds :: (rest.dropLast ++ [.finished e])
                rw [List.dropLast_append_getLast? _ hlast]
              · have hother := List.all_eq_true.mp hmid _ he'
                exact of_decide_eq_true hother
          · cases hx
      · cases hx
  · cases hx

section

open SpecDecodeScheduler

variable {c : Setup} {s s' : SpecDecodeScheduler} {h mid : List Event} {e : LangStepEvent}
  {id n : Nat} {hint : ℚ} {preds : List (Nat × Bool)} {p : EDC}

theorem Setup.Reach.single (ht : c.targetModel.isSome = true) (hone : c.rows.length = 1)
    (hr : c.Reach s h) : SingleOk s h := by
  refine hr.induct ht (P := fun s h => SingleOk s h) (fun s₀ F => ?_)
    fun s h s' e I C S hm => S.move hone I C hm
  refine ⟨fun id r hact => ?_, fun id r hact => ?_, fun _ => rfl, trivial⟩
  · rw [F.noActive] at hact
    cases hact
  · rw [F.noActive] at hact
    cases hact

/-- A segment of a run is seen in the tables as the fold of its events. -/
theorem Setup.Reach.observed (ht : c.targetModel.isSome = true) (hr : c.Reach s h)
    (hp : s.predictor = some p) {h' : List Event} (hx : Exec machine s s' h') :
    ∃ p', s'.predictor = some p' ∧ p'.view = h'.foldl PredictorView.observe p.view := by
  obtain ⟨I, C⟩ := hr.inv ht
  obtain ⟨v₀, _, ⟨p₀, hp₀, hsized, _⟩, _⟩ := hr.shows ht hp
  rw [hp, Option.some.injEq] at hp₀
  subst hp₀
  obtain ⟨_, _, p', hp', _, hview⟩ := exec_moves
    (P := fun s h => Shows s (h.foldl PredictorView.observe p.view))
    (fun s h s' e _ _ V hm => by rw [List.foldl_append]; exact V.move hm) I C
    ⟨p, hp, hsized, rfl⟩ hx
  exact ⟨p', hp', hview⟩

theorem noPlan_snoc (hplan : ∀ id n hint preds, .planned id n hint preds ∉ mid) :
    ∀ id n hint preds, .planned id n hint preds ∉ mid ++ [Event.finished e] := by
  intro id n hint preds hmem
  rcases List.mem_append.mp hmem with hmem | hmem
  · exact hplan id n hint preds hmem
  · cases List.mem_singleton.mp hmem

/-- Inside a round of a single request no other is planned. -/
theorem Setup.Reach.noPlan (hone : c.rows.length = 1) (hr : c.Reach s h)
    (hx : Exec machine s s' (.planned id n hint preds :: mid ++ [.finished e]))
    (hmid : ∀ e', .finished e' ∈ mid → e'.taskType ≠ .verify) :
    ∀ id n hint preds, .planned id n hint preds ∉ mid := by
  have ht := (hr.exec hx).speculative (List.mem_append_right h List.mem_cons_self) nofun
  obtain ⟨-, -, hrest⟩ := (Ordered.append_iff none h _).mp ((hr.exec hx).single ht hone).ordered
  obtain ⟨horder, -, -⟩ := (Ordered.append_iff (some (id, n)) mid _).mp hrest
  exact horder.noPlan hmid

/-- **A round of a single request**, from a state before it is planned to its VERIFY: the predictor
    is idle before, and afterwards it is the planned one after the first verification of the
    round. -/
theorem Setup.Reach.round (hone : c.rows.length = 1) (hr : c.Reach s h)
    (hx : Exec machine s s' (.planned id n hint preds :: mid ++ [.finished e]))
    (hverify : e.taskType = .verify) (hmid : ∀ e', .finished e' ∈ mid → e'.taskType ≠ .verify)
    (hp : s.predictor = some p) :
    (e.requestId, e.specRound) = (id, n) ∧ p.view.Idle ∧ ∃ p', s'.predictor = some p' ∧
      p'.view = List.foldl PredictorView.observe p.view
        (.planned id n hint preds :: mid ++ [.finished e]) ∧
      p'.view = (p.view.plan hint preds).verified (firstVerification mid e).fullyAccepted
        (firstVerification mid e).acceptedLength := by
  have ht := (hr.exec hx).speculative (List.mem_append_right h List.mem_cons_self) nofun
  -- the order of the events fixes the round that is open
  obtain ⟨hbefore, hplanned, hrest⟩ := (Ordered.append_iff none h _).mp
    ((hr.exec hx).single ht hone).ordered
  have hclosed : h.foldl trackRound none = none := hplanned
  obtain ⟨_, hlast, _⟩ := (Ordered.append_iff (some (id, n)) mid _).mp hrest
  have hplan := hr.noPlan hone hx hmid
  have hopen := hlast hverify
  rw [foldl_trackRound_open hplan hmid, Option.some.injEq] at hopen
  obtain ⟨v₀, _, ⟨p₀, hp₀, _, hview⟩, hrests⟩ := hr.shows ht hp
  rw [hp, Option.some.injEq] at hp₀
  subst hp₀
  have hidle : p.view.Idle := by
    rw [hview]
    refine hrests fun k r hact hin => ?_
    have hround := (hr.single ht hone).opened k r hact hin
    rw [hclosed] at hround
    cases hround
  obtain ⟨p', hp', hview'⟩ := hr.observed ht hp hx
  refine ⟨hopen.symm, hidle, p', hp', hview', hview'.trans ?_⟩
  show List.foldl PredictorView.observe (p.view.plan hint preds) (mid ++ [.finished e]) = _
  rw [PredictorView.foldl_verifications _ (noPlan_snoc hplan)]
  rw [verifications_snoc hverify]
  unfold firstVerification
  cases verifications mid with
  | nil => rfl
  | cons f rest =>
      exact (PredictorView.verified_idle _ _ _).foldl_verified (rest ++ [e])

/-- The second round of a request, with a PRE_VERIFY of two of its three drafts, all accepted, and a
    VERIFY that accepts two. -/
def preVerifiedSetup : Setup :=
  sampleSetup [⟨0, 4, 9, 1⟩] [(⟨0, 1⟩, ⟨3, 0, 3⟩), (⟨0, 2⟩, ⟨3, 0, 2⟩)]

/-- The calls up to that round: the slow first VERIFY makes room for a pre-verification. -/
def firstRoundCalls : List Act :=
  finishing [2, 3, 4, 5] ++ List.replicate 21 .cycle ++ [.finishModel 6]

/-- How many of `n` predictions a verification finds useful. -/
def LangStepEvent.useful (e : LangStepEvent) (n : Nat) : Nat :=
  EDC.useful e.fullyAccepted e.acceptedLength n

/-- A round's trainings are what its first verification says of its predictions. -/
theorem PredictorView.Idle.trainings_round {v : PredictorView} (hv : v.Idle)
    (hverify : e.taskType = .verify) (hplan : ∀ id n hint preds, .planned id n hint preds ∉ mid) :
    v.trainings (.planned id n hint preds :: mid ++ [.finished e]) =
      EDC.outcomes (firstVerification mid e).fullyAccepted
        (firstVerification mid e).acceptedLength preds := by
  have hwaits : (v.plan hint preds).pending = preds := by
    unfold PredictorView.plan
    rw [hv.pending, List.nil_append]
  show (v.plan hint preds).trainings (mid ++ [.finished e]) = _
  rw [PredictorView.trainings_verifications _ (noPlan_snoc hplan), verifications_snoc hverify, hwaits]
  unfold firstVerification
  cases verifications mid <;> rfl

/-- **What a round of a single request trains**: nothing waits before it and after it, and in
    between each of its predictions is trained once, by the round's first verification. The outcomes
    are those of the VERIFY -- prediction `i` as taken when it accepted all drafts, or more than
    `i + 1` -- exactly when no PRE_VERIFY came before it, or the first one found as many of the
    predictions useful. -/
theorem round_training (hone : c.rows.length = 1) (hr : c.Reach s h)
    (hx : Exec machine s s' (.planned id n hint preds :: mid ++ [.finished e]))
    (hverify : e.taskType = .verify) (hmid : ∀ e', .finished e' ∈ mid → e'.taskType ≠ .verify)
    (hp : s.predictor = some p) :
    (e.requestId, e.specRound) = (id, n) ∧ p.pending = [] ∧
      ∃ p', s'.predictor = some p' ∧ p'.pending = [] ∧
        let trained := p.view.trainings (.planned id n hint preds :: mid ++ [.finished e])
        p'.pht = trained.foldl EDC.trainCounter p.pht ∧
        trained = EDC.outcomes (firstVerification mid e).fullyAccepted
          (firstVerification mid e).acceptedLength preds ∧
        (trained = EDC.outcomes e.fullyAccepted e.acceptedLength preds ↔
          ∀ f ∈ (verifications mid).head?, f.useful preds.length = e.useful preds.length) := by
  obtain ⟨hround, hidle, p', hp', hview, hverified⟩ := hr.round hone hx hverify hmid hp
  refine ⟨hround, hidle.pending, p', hp', congrArg PredictorView.pending hverified,
    (congrArg PredictorView.pht hview).trans (p.view.foldl_pht _), ?_⟩
  have htrained : p.view.trainings (.planned id n hint preds :: mid ++ [.finished e]) = _ :=
    hidle.trainings_round hverify (hr.noPlan hone hx hmid)
  refine ⟨htrained, ?_⟩
  rw [htrained, EDC.outcomes_eq_iff]
  unfold firstVerification
  cases verifications mid with
  | nil => simp
  | cons f rest => simp [LangStepEvent.useful]

/-- The first round of a request: both predictions are trained by its VERIFY. -/
theorem round_training_sample : ∃ s h s' p p', ∃ x : RoundSegment,
    (sampleSetup [⟨0, 4, 9, 1⟩] [(⟨0, 1⟩, ⟨3, 0, 3⟩)]).Reach s h ∧
      Exec machine s s' (.planned x.requestId x.specRound x.hint x.preds :: x.mid ++
        [.finished x.last]) ∧
      s.predictor = some p ∧ s'.predictor = some p' ∧
      p'.pht = (EDC.outcomes x.last.fullyAccepted x.last.acceptedLength x.preds).foldl
        EDC.trainCounter p.pht := by
  obtain ⟨s, h, s', h', hr, hexec, hfacts⟩ := Setup.exists_segment
    (c := sampleSetup [⟨0, 4, 9, 1⟩] [(⟨0, 1⟩, ⟨3, 0, 3⟩)]) (l := finishing [2])
    (k := finishing [3, 4, 5, 6]) (p := fun s _ h' => s.predictor.isSome &&
      (roundOf h').any fun x => (verifications x.mid).isEmpty) (by decide +kernel)
  rw [Bool.and_eq_true] at hfacts
  obtain ⟨p, hp⟩ := Option.isSome_iff_exists.mp hfacts.1
  obtain ⟨x, hx, hnone⟩ := (Option.any_eq_true _ _).mp hfacts.2
  obtain ⟨rfl, hverify, hmid⟩ := roundOf_spec hx
  obtain ⟨_, _, p', hp', _, hpht, _, hiff⟩ := round_training rfl hr hexec hverify hmid hp
  refine ⟨s, h, s', p, p', x, hr, hexec, hp, hp', hpht.trans ?_⟩
  rw [hiff.mpr]
  rw [List.isEmpty_iff.mp hnone]
  exact fun f hf => absurd hf (Option.not_mem_none f)

/-- The VERIFY's outcome is not what its round's predictions are trained with. -/
theorem pre_verify_trains_round : ¬ ∀ s h s' (x : RoundSegment) p p',
    preVerifiedSetup.Reach s h →
    Exec machine s s' (.planned x.requestId x.specRound x.hint x.preds :: x.mid ++
      [.finished x.last]) →
    x.last.taskType = .verify → (∀ e, .finished e ∈ x.mid → e.taskType ≠ .verify) →
    s.predictor = some p → s'.predictor = some p' →
    p'.pht = (EDC.outcomes x.last.fullyAccepted x.last.acceptedLength x.preds).foldl
      EDC.trainCounter p.pht := by
  intro hclaim
  obtain ⟨s, h, s', h', hr, hexec, hfacts⟩ := Setup.exists_segment (c := preVerifiedSetup)
    (l := firstRoundCalls) (k := finishing [7, 8, 9, 10, 11])
    (p := fun s s' h' => (roundOf h').any fun x => s.predictor.any fun p => s'.predictor.any fun p' =>
      p'.pht ≠ (EDC.outcomes x.last.fullyAccepted x.last.acceptedLength x.preds).foldl
        EDC.trainCounter p.pht) (by decide +kernel)
  obtain ⟨x, hx, hfacts⟩ := (Option.any_eq_true _ _).mp hfacts
  obtain ⟨p, hp, hfacts⟩ := (Option.any_eq_true _ _).mp hfacts
  obtain ⟨p', hp', hdiffer⟩ := (Option.any_eq_true _ _).mp hfacts
  obtain ⟨rfl, hverify, hmid⟩ := roundOf_spec hx
  exact of_decide_eq_true hdiffer (hclaim s h s' x p p' hr hexec hverify hmid hp hp')

/-- **The history after a round of a single request** is as a verification of the drafts leaves it
    -- the buckets of the round are kept when all drafts are accepted, and dropped otherwise --
    exactly when the first verification of the round agrees with the last one on full acceptance, or
    the buckets change nothing. -/
theorem round_history (hone : c.rows.length = 1) (hr : c.Reach s h)
    (hx : Exec machine s s' (.planned id n hint preds :: mid ++ [.finished e]))
    (hverify : e.taskType = .verify) (hmid : ∀ e', .finished e' ∈ mid → e'.taskType ≠ .verify)
    (hp : s.predictor = some p) :
    ∃ p', s'.predictor = some p' ∧
      let extended := p.history.replay (List.replicate preds.length (p.entropyToBucket hint))
      (p'.history = (if e.fullyAccepted then extended else p.history) ↔
        (firstVerification mid e).fullyAccepted = e.fullyAccepted ∨ extended = p.history) := by
  obtain ⟨_, hidle, p', hp', _, hview⟩ := hr.round hone hx hverify hmid hp
  refine ⟨p', hp', ?_⟩
  have hagree : p.history = p.committed := hidle.agree
  have hhistory : p'.history = if (firstVerification mid e).fullyAccepted then
      p.history.replay (List.replicate preds.length (p.entropyToBucket hint)) else p.committed :=
    congrArg PredictorView.recent hview
  rw [← hagree] at hhistory
  dsimp only
  rw [hhistory]
  generalize p.history.replay _ = extended
  cases (firstVerification mid e).fullyAccepted <;> cases e.fullyAccepted
  · simp
  · simp [eq_comm]
  · simp
  · simp

/-- The first round of a request, all drafts accepted: the history has the buckets of the round. -/
theorem round_history_sample : ∃ s h s' p p', ∃ x : RoundSegment,
    (sampleSetup [⟨0, 4, 9, 1⟩] [(⟨0, 1⟩, ⟨3, 0, 3⟩)]).Reach s h ∧
      Exec machine s s' (.planned x.requestId x.specRound x.hint x.preds :: x.mid ++
        [.finished x.last]) ∧
      s.predictor = some p ∧ s'.predictor = some p' ∧
      p'.history = p.history.replay
        (List.replicate x.preds.length (p.entropyToBucket x.hint)) := by
  obtain ⟨s, h, s', h', hr, hexec, hfacts⟩ := Setup.exists_segment
    (c := sampleSetup [⟨0, 4, 9, 1⟩] [(⟨0, 1⟩, ⟨3, 0, 3⟩)]) (l := finishing [2])
    (k := finishing [3, 4, 5, 6]) (p := fun s _ h' => s.predictor.isSome &&
      (roundOf h').any fun x => x.last.fullyAccepted && decide (verifications x.mid = []))
    (by decide +kernel)
  rw [Bool.and_eq_true] at hfacts
  obtain ⟨p, hp⟩ := Option.isSome_iff_exists.mp hfacts.1
  obtain ⟨x, hx, hshape⟩ := (Option.any_eq_true _ _).mp hfacts.2
  rw [Bool.and_eq_true] at hshape
  obtain ⟨rfl, hverify, hmid⟩ := roundOf_spec hx
  obtain ⟨p', hp', hhistory⟩ := round_history rfl hr hexec hverify hmid hp
  dsimp only at hhistory
  unfold firstVerification at hhistory
  rw [of_decide_eq_true hshape.2, hshape.1] at hhistory
  exact ⟨s, h, s', p, p', x, hr, hexec, hp, hp', hhistory.mpr (.inl hshape.1)⟩

/-- The VERIFY rejects a draft, and the history keeps the buckets of its round. -/
theorem pre_verify_commits_history : ¬ ∀ s h s' (x : RoundSegment) p p',
    preVerifiedSetup.Reach s h →
    Exec machine s s' (.planned x.requestId x.specRound x.hint x.preds :: x.mid ++
      [.finished x.last]) →
    x.last.taskType = .verify → (∀ e, .finished e ∈ x.mid → e.taskType ≠ .verify) →
    s.predictor = some p → s'.predictor = some p' →
    p'.history = if x.last.fullyAccepted then
      p.history.replay (List.replicate x.preds.length (p.entropyToBucket x.hint)) else p.history := by
  intro hclaim
  obtain ⟨s, h, s', h', hr, hexec, hfacts⟩ := Setup.exists_segment (c := preVerifiedSetup)
    (l := firstRoundCalls) (k := finishing [7, 8, 9, 10, 11])
    (p := fun s s' h' => (roundOf h').any fun x => !x.last.fullyAccepted &&
      s.predictor.any fun p => s'.predictor.any fun p' => p'.history ≠ p.history)
    (by decide +kernel)
  obtain ⟨x, hx, hfacts⟩ := (Option.any_eq_true _ _).mp hfacts
  rw [Bool.and_eq_true, Bool.not_eq_true'] at hfacts
  obtain ⟨hrejects, hfacts⟩ := hfacts
  obtain ⟨p, hp, hfacts⟩ := (Option.any_eq_true _ _).mp hfacts
  obtain ⟨p', hp', hdiffer⟩ := (Option.any_eq_true _ _).mp hfacts
  obtain ⟨rfl, hverify, hmid⟩ := roundOf_spec hx
  have hequal := hclaim s h s' x p p' hr hexec hverify hmid hp hp'
  rw [hrejects] at hequal
  exact of_decide_eq_true hdiffer hequal

end

end Ahasd
