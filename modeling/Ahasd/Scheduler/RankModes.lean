/-
  File:      Ahasd/Scheduler/RankModes.lean
  Subject:   THE RANK MODES OF THE PIM CHANNELS over a run with AHASD and PIM.

  The scheduler remembers the mode each request last asked for and asks for a switch only when the
  request's own mode changes; the channels have one mode for all requests.

  * `RankView`: what a history makes of the modes, issue by issue;
  * `RanksOk`: the channels and the remembered modes are those of the history, `RanksOk.move`;
  * `rank_mode_at_issue`: the mode of the channels at every issue.
-/
import Mathlib.Data.List.Induction
import Ahasd.Scheduler.Runs

namespace Ahasd

open Std Transition OrderedMap

/-! ## 1. The modes of a history -/

/-- The rank mode a task asks for: 0 for the draft model, 1 for the target model. -/
def LangTaskType.rankMode : LangTaskType → Nat
  | draft => 0
  | _ => 1

/-- The mode of the channels, and the mode each request last asked for. -/
structure RankView where
  channels : Nat := 0
  requests : Nat → Nat := fun _ => 0

namespace RankView

/-- An issue switches the channels when its request asks for another mode than before. -/
def issue (v : RankView) (info : ModelMeta) : RankView :=
  if v.requests info.requestId = info.taskType.rankMode then v
  else
    { channels := info.taskType.rankMode
      requests := Function.update v.requests info.requestId info.taskType.rankMode }

/-- The view after a history. -/
def after (h : List Event) : RankView :=
  h.foldl (fun v x => match x with
    | .issued _ info => v.issue info
    | _ => v) {}

@[simp] theorem after_issued (h : List Event) (built : Model) (info : ModelMeta) :
    after (h ++ [.issued built info]) = (after h).issue info :=
  List.foldl_append

@[simp] theorem after_planned (h : List Event) (id n : Nat) (hint : ℚ)
    (preds : List (Nat × Bool)) : after (h ++ [.planned id n hint preds]) = after h :=
  List.foldl_append

@[simp] theorem after_finished (h : List Event) (e : LangStepEvent) :
    after (h ++ [.finished e]) = after h :=
  List.foldl_append

section Issue

variable (v : RankView) (info : ModelMeta)

theorem issue_channels : (v.issue info).channels =
    if v.requests info.requestId = info.taskType.rankMode then v.channels
    else info.taskType.rankMode := by
  unfold issue
  split <;> rfl

/-- The request remembers the mode of its issue. -/
theorem issue_requests (id : Nat) : (v.issue info).requests id =
    if id = info.requestId then info.taskType.rankMode else v.requests id := by
  unfold issue
  split
  · next hsame =>
      split
      · next heq => rw [heq, hsame]
      · rfl
  · exact Function.update_apply _ _ _ _

/-- With one request the channels are in the mode it last asked for. -/
theorem issue_single (h : v.channels = v.requests info.requestId) :
    (v.issue info).channels = info.taskType.rankMode := by
  rw [issue_channels]
  split
  · next hsame => exact h.trans hsame
  · rfl

end Issue

end RankView

/-- The mode of the last model issued for a request; the draft model's before the first. -/
def lastMode (id : Nat) (h : List Event) : Nat :=
  ((h.filterMap fun
    | .issued _ info => if info.requestId = id then some info.taskType.rankMode else none
    | _ => none).getLast?).getD 0

/-- **The mode a request asked for last is that of its last model.** -/
theorem RankView.after_requests (id : Nat) (h : List Event) :
    (RankView.after h).requests id = lastMode id h := by
  induction h using List.reverseRec with
  | nil => rfl
  | append_singleton h x ih =>
      unfold lastMode at ih ⊢
      rw [List.filterMap_append, List.getLast?_append]
      cases x with
      | issued built info =>
          rw [after_issued, issue_requests, ih]
          by_cases hid : id = info.requestId
          · simp [hid]
          · have hne : ¬ info.requestId = id := fun heq => hid heq.symm
            simp [hid, hne]
      | planned id' n hint preds =>
          rw [after_planned, ih]
          simp
      | finished e =>
          rw [after_finished, ih]
          simp

namespace SpecDecodeScheduler

/-! ## 2. The switch of an issue -/

/-- **A rank switch**: the remembered mode of the request decides. -/
theorem requestRankSwitch_ranks {s : SpecDecodeScheduler} {p : PIMBackend} (hp : s.pim = some p)
    (ha : s.ahasd.isSome = true) (hon : p.active = true) (id mode : Nat) :
    ((s.requestRankSwitch id mode).pim =
      some (if (s.lastRankMode[id]?).getD 0 = mode then p
        else (p.switchAllPimTo mode s.cycleCount).2)) ∧
    ∀ id' : Nat, ((s.requestRankSwitch id mode).lastRankMode[id']?).getD 0 =
      if id' = id then mode else (s.lastRankMode[id']?).getD 0 := by
  obtain ⟨a, ha⟩ := Option.isSome_iff_exists.mp ha
  unfold requestRankSwitch
  rw [hp, ha]
  dsimp only
  rw [hon]
  by_cases hmode : (s.lastRankMode[id]?).getD 0 = mode
  · simp only [Bool.not_true, Bool.false_eq_true, if_false, hmode, if_true]
    refine ⟨hp, fun id' => ?_⟩
    split
    · next heq => rw [heq, hmode]
    · rfl
  · rw [if_neg (by simp), if_neg hmode, if_neg hmode]
    refine ⟨rfl, fun id' => ?_⟩
    rw [lookup_insert]
    split <;> rfl

/-- The ranks and the remembered modes after an issue, by its task. -/
theorem Prepared.ranks {s s₁ : SpecDecodeScheduler} {req req' : LangRequest}
    {model : LanguageModel} {seqLength : Nat} {info : ModelMeta}
    (hprep : Prepared s req s₁ req' model seqLength info) {p : PIMBackend} (hp : s.pim = some p)
    (ha : s.ahasd.isSome = true) (hon : p.active = true) :
    (s₁.pim = some (if (s.lastRankMode[req.requestId]?).getD 0 = info.taskType.rankMode then p
      else (p.switchAllPimTo info.taskType.rankMode s.cycleCount).2)) ∧
    ∀ id : Nat, (s₁.lastRankMode[id]?).getD 0 =
      if id = req.requestId then info.taskType.rankMode else (s.lastRankMode[id]?).getD 0 := by
  have hahasd : (s.decidePreVerify req).2.ahasd.isSome = true := by
    obtain ⟨tvc, htvc, _⟩ := s.decidePreVerify_ahasd req
    rw [htvc, Option.isSome_map]
    exact ha
  obtain ⟨ahasd, hframe⟩ := s.decidePreVerify_frame req
  cases hprep with
  | prompt h => exact requestRankSwitch_ranks hp ha hon req.requestId 1
  | draft h => exact requestRankSwitch_ranks hp ha hon req.requestId 0
  | verify h hpv =>
      have hranks := requestRankSwitch_ranks (s := (s.decidePreVerify req).2)
        (by rw [hframe]; exact hp) hahasd hon req.requestId 1
      rw [hframe] at hranks
      rw [hframe]
      exact hranks
  | preVerify h hpv =>
      have hranks := requestRankSwitch_ranks
        (s := { (s.decidePreVerify req).2 with
          preVerifiedInRound := s.preVerifiedInRound.insert req.requestId req.specRound })
        (by rw [hframe]; exact hp) hahasd hon req.requestId 1
      rw [hframe] at hranks
      rw [hframe]
      exact hranks

/-! ## 3. The invariant -/

/-- **The ranks are those of the history**, and the remembered modes of the requests that are still
    to be served. -/
structure RanksOk (c : Setup) (s : SpecDecodeScheduler) (v : RankView) : Prop where
  pim : ∃ p, s.pim = some p ∧ p.active = true ∧ p.Sized ∧ p.AllIn v.channels
  remembered : ∀ id : Nat, s.activeRequests[id]?.isSome = true ∨
      (∃ r ∈ s.requestQueue, r.requestId = id) →
    (s.lastRankMode[id]?).getD 0 = v.requests id
  single : c.rows.length = 1 → v.channels = v.requests 0

/-- A step that keeps the ranks, for the same requests. -/
theorem RanksOk.frame {c : Setup} {s s' : SpecDecodeScheduler} {v : RankView} (R : RanksOk c s v)
    {f : PIMBackend → PIMBackend} (hpim : s'.pim = s.pim.map f)
    (hf : ∀ p, PIMBackend.SameRanks p (f p))
    (hmodes : ∀ id : Nat, s'.activeRequests[id]?.isSome = true ∨
        (∃ r ∈ s'.requestQueue, r.requestId = id) →
      s'.lastRankMode[id]? = s.lastRankMode[id]? ∧ (s.activeRequests[id]?.isSome = true ∨
        ∃ r ∈ s.requestQueue, r.requestId = id)) : RanksOk c s' v := by
  refine ⟨?_, fun id hid => ?_, R.single⟩
  · obtain ⟨p, hp, hon, hsized, hall⟩ := R.pim
    exact ⟨f p, by rw [hpim, hp]; rfl, (hf p).active.trans hon, (hf p).sized hsized,
      ((hf p).allIn _).mpr hall⟩
  · obtain ⟨hsame, hbefore⟩ := hmodes id hid
    rw [hsame]
    exact R.remembered id hbefore

/-- The coordinator of the configuration is attached. -/
theorem Configured.ahasd_isSome {c : Setup} {s : SpecDecodeScheduler} (C : Configured c s)
    (ha : c.config.enableAhasd = true) : s.ahasd.isSome = true := by
  have hconfig := congrArg Option.isSome C.ahasd
  rw [Option.isSome_map, Option.isSome_map] at hconfig
  rw [hconfig]
  unfold Setup.ahasd
  rw [if_pos ha]
  rfl

theorem RanksOk.issue {c : Setup} {s s₁ : SpecDecodeScheduler} {v : RankView}
    (C : Configured c s) (ha : c.config.enableAhasd = true) (R : RanksOk c s v)
    {req req' : LangRequest} {model : LanguageModel} {seqLength : Nat} {info : ModelMeta}
    {built : Model} {g : Globals} (hact : s.activeRequests[req.requestId]? = some req)
    (hprep : Prepared s req s₁ req' model seqLength info)
    (hgen : model.generateModel [modelInput req' info.taskType seqLength] s.globals =
      some (built, g)) : RanksOk c (s₁.launched req' info built g) (v.issue info) := by
  have L := hprep.launched hgen
  obtain ⟨_, hactive⟩ := L.active
  have hid : info.requestId = req.requestId := hprep.request.2
  have hmode : (s.lastRankMode[req.requestId]?).getD 0 = v.requests info.requestId := by
    rw [hid]
    exact R.remembered _ (.inl (by rw [hact]; rfl))
  obtain ⟨p, hp, hon, hsized, hall⟩ := R.pim
  obtain ⟨hpim, hmodes⟩ := hprep.ranks hp (C.ahasd_isSome ha) hon
  refine ⟨⟨_, hpim, ?_⟩, fun id hserved => ?_, fun hone => ?_⟩
  · rw [RankView.issue_channels, ← hmode]
    split
    · exact ⟨hon, hsized, hall⟩
    · obtain ⟨hon', _, hsized'⟩ :=
        PIMBackend.switchAllPimTo_frame hsized hon info.taskType.rankMode s.cycleCount
      exact ⟨hon', hsized', PIMBackend.switchAllPimTo_allIn hsized hon _ _⟩
  · refine (hmodes id).trans ?_
    rw [RankView.issue_requests, hid]
    split
    · rfl
    · next hne =>
        refine R.remembered id ?_
        rw [hactive, if_neg hne, L.queue] at hserved
        exact hserved
  · have hlt := C.request_lt hact
    have hzero : info.requestId = 0 := by omega
    have hsingle := R.single hone
    rw [← hzero] at hsingle
    rw [RankView.issue_single _ _ hsingle, RankView.issue_requests, if_pos hzero.symm]

/-- **Every move keeps the ranks.** -/
theorem RanksOk.move {c : Setup} {s s' : SpecDecodeScheduler} {h e : List Event}
    (I : ProtocolOk s) (C : Configured c s) (ha : c.config.enableAhasd = true)
    (R : RanksOk c s (.after h)) (hm : Move s s' e) : RanksOk c s' (.after (h ++ e)) := by
  cases hm with
  | minor s' hm =>
      obtain ⟨f, hpim, hf⟩ := hm.pim
      rw [List.append_nil]
      refine R.frame hpim hf fun id hid => ?_
      rw [hm.active, hm.queue] at hid
      rw [hm.modes]
      exact ⟨rfl, hid⟩
  | admitOne r rest hq =>
      rw [List.append_nil]
      refine R.frame (f := id) Option.map_id'.symm .refl fun k hk => ⟨rfl, ?_⟩
      rw [s.admit_lookup r rest] at hk
      rw [hq]
      rcases hk with hk | ⟨q, hqr, hkey⟩
      · split at hk
        · next heq => exact .inr ⟨r, List.mem_cons_self, heq.symm⟩
        · exact .inl hk
      · exact .inr ⟨q, List.mem_cons_of_mem r hqr, hkey⟩
  | plan req hact hrun hphase =>
      obtain ⟨_, hqueue, _, _, _, _, _, hpim, hmodes⟩ := s.planRound_frame req
      rw [RankView.after_planned]
      refine R.frame (f := id) (by rw [hpim]; exact Option.map_id'.symm) .refl fun k hk => ?_
      rw [s.planRound_lookup req, hqueue] at hk
      refine ⟨by rw [hmodes], hk.imp_left fun hsome => ?_⟩
      split at hsome
      · next heq => rw [heq, hact]; rfl
      · exact hsome
  | issue s₁ req req' model seqLength info built g hact hrun hprep hgen =>
      rw [RankView.after_issued]
      exact R.issue C ha hact hprep hgen
  | finish modelId info req hinfo hid hact htask =>
      rw [RankView.after_finished]
      refine R.frame (f := id) (by rw [completed_pim]; exact Option.map_id'.symm) .refl
        fun k hk => ?_
      rw [s.completed_activeRequests modelId req info hid hact, completed_requestQueue] at hk
      rw [completed_lastRankMode]
      by_cases heq : k = req.requestId
      · -- a finished request is not served any more
        rw [if_pos heq] at hk
        have hafter : s.afterTask req info ≠ none := by
          intro hnone
          rw [hnone] at hk
          rcases hk with hk | ⟨q, hqr, hkey⟩
          · cases hk
          · have hlt := (I.requests _ _ hact).admitted q hqr
            omega
        rw [if_neg hafter]
        exact ⟨rfl, .inl (by rw [heq, hact]; rfl)⟩
      · rw [if_neg heq] at hk
        refine ⟨?_, hk⟩
        split
        · rw [lookup_erase, if_neg heq]
        · rfl

end SpecDecodeScheduler

/-! ## 4. Every run -/

section

open SpecDecodeScheduler

variable {c : Setup} {s : SpecDecodeScheduler} {h : List Event}

theorem Setup.Reach.ranks (ht : c.targetModel.isSome = true) (ha : c.config.enableAhasd = true)
    (hpim : (PIMBackend.new c.config).active = true) (hr : c.Reach s h) :
    RanksOk c s (.after h) := by
  refine hr.induct ht (P := fun s h => RanksOk c s (.after h)) (fun s₀ F => ?_)
    fun s h s' e I C R hm => R.move I C ha hm
  refine ⟨⟨.new c.config, ?_, hpim, PIMBackend.new_sized _, PIMBackend.new_allIn _⟩,
    fun id _ => ?_, fun _ => rfl⟩
  · rw [F.pim]
    exact if_pos hpim
  · rw [F.modes, lookup_empty]
    rfl

/-- **The rank mode at an issue**, with AHASD attached and PIM active: all PIM channels share one
    mode. When the request's last model had another mode than its new one, the issue switches every
    channel to the mode of the new one; otherwise it leaves the channels in the mode the last switch
    of any request put them in. With a single request that is always the mode of the task. -/
theorem rank_mode_at_issue (ha : c.config.enableAhasd = true)
    (hpim : (PIMBackend.new c.config).active = true) (hr : c.Reach s h) {act : Act}
    {s' : SpecDecodeScheduler} (hs : machine.step s act = some s') {built : Model}
    {info : ModelMeta} (hi : .issued built info ∈ machine.obs s act s') :
    ∃ p p' : PIMBackend, s.pim = some p ∧ s'.pim = some p' ∧
      p.AllIn (RankView.after h).channels ∧
      p'.AllIn (if lastMode info.requestId h = info.taskType.rankMode then
        (RankView.after h).channels else info.taskType.rankMode) ∧
      (c.rows.length = 1 → p'.AllIn info.taskType.rankMode) := by
  have ht := (hr.exec (.one hs)).speculative (List.mem_append_right h hi) nofun
  have R := hr.ranks ht ha hpim
  obtain ⟨t, I, C, Rt, hm⟩ := hr.issued ht (P := fun s h => RanksOk c s (.after h))
    (fun s h s' e I C R hm => R.move I C ha hm) R hs hi
  have hplanned : RankView.after (h ++ plannedBy s s' info) = RankView.after h := by
    unfold plannedBy
    split
    · exact RankView.after_planned _ _ _ _ _
    · rw [List.append_nil]
  have R' := Rt.move I C ha hm
  rw [RankView.after_issued, hplanned] at R'
  have hlt : info.requestId < c.rows.length := by
    cases hm with
    | issue s₁ req req' model seqLength info built g hact hrun hprep hgen =>
        exact hprep.request.2 ▸ C.request_lt hact
  obtain ⟨p, hp, _, _, hall⟩ := R.pim
  obtain ⟨p', hp', _, _, hall'⟩ := R'.pim
  refine ⟨p, p', hp, hp', hall, ?_, fun hone => ?_⟩
  · rw [RankView.issue_channels, RankView.after_requests] at hall'
    exact hall'
  · have hzero : info.requestId = 0 := by omega
    have hsingle := R.single hone
    rw [← hzero] at hsingle
    rw [RankView.issue_single _ _ hsingle] at hall'
    exact hall'

/-- The first draft of a single request is issued in the draft model's mode. -/
theorem rank_mode_at_issue_sample : ∃ s h s' built info p',
    (sampleSetup [⟨0, 4, 6, 1⟩] [(⟨0, 1⟩, ⟨3, 0, 3⟩)]).Reach s h ∧
      machine.step s .cycle = some s' ∧ .issued built info ∈ machine.obs s .cycle s' ∧
      info.taskType = .draft ∧ s'.pim = some p' ∧ p'.AllIn 0 := by
  obtain ⟨s, h, s', hr, hs, hfacts⟩ := Setup.exists_step
    (c := sampleSetup [⟨0, 4, 6, 1⟩] [(⟨0, 1⟩, ⟨3, 0, 3⟩)]) (l := finishing [2]) (a := .cycle)
    (p := fun s _ s' => (machine.obs s .cycle s').any <|
      Event.issuedWith fun _ info => info.taskType = .draft) (by decide +kernel)
  obtain ⟨built, info, hx, hdraft⟩ := Event.exists_issued hfacts
  have hty : info.taskType = .draft := of_decide_eq_true hdraft
  obtain ⟨p, p', _, hp', _, _, hsingle⟩ := rank_mode_at_issue rfl (by decide) hr hs hx
  rw [hty] at hsingle
  exact ⟨s, h, s', built, info, p', hr, hs, hx, hty, hp', hsingle rfl⟩

/-- Two requests: between two drafts of the first, the prompt of the second switches the channels to
    the target model's mode, and the second draft is issued in it. -/
theorem draft_in_target_mode : ¬ ∀ s h s' built info p',
    (sampleSetup [⟨0, 4, 6, 1⟩, ⟨0, 4, 6, 1⟩] [(⟨0, 1⟩, ⟨3, 0, 3⟩)]).Reach s h →
    machine.step s .cycle = some s' → .issued built info ∈ machine.obs s .cycle s' →
    s'.pim = some p' → p'.AllIn info.taskType.rankMode := by
  intro hclaim
  obtain ⟨s, h, s', hr, hs, hfacts⟩ := Setup.exists_step
    (c := sampleSetup [⟨0, 4, 6, 1⟩, ⟨0, 4, 6, 1⟩] [(⟨0, 1⟩, ⟨3, 0, 3⟩)])
    (l := [.cycle, .finishModel 4, .cycle, .cycle, .finishModel 5]) (a := .cycle)
    (p := fun s _ s' => (machine.obs s .cycle s').any (Event.issuedWith fun _ info =>
        info.requestId = 0 ∧ info.taskType = .draft) &&
      s'.pim.any fun p' : PIMBackend => p'.isPimChannel 0 && decide (p'.rankMode 0 = 1))
    (by decide +kernel)
  rw [Bool.and_eq_true] at hfacts
  obtain ⟨built, info, hx, hdraft⟩ := Event.exists_issued hfacts.1
  obtain ⟨p', hp', hmode⟩ := (Option.any_eq_true _ _).mp hfacts.2
  rw [Bool.and_eq_true] at hmode
  obtain ⟨_, hty⟩ := of_decide_eq_true hdraft
  have hall := hclaim s h s' built info p' hr hs hx hp' 0 hmode.1
  rw [hty, of_decide_eq_true hmode.2] at hall
  cases hall

end

end Ahasd
