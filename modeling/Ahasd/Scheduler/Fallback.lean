/-
  File:      Ahasd/Scheduler/Fallback.lean
  Subject:   WITHOUT A TARGET MODEL: the speculative scheduler beside the base scheduler.

  `cycle` steps the clock and admits, and then calls the base `cycle` when nothing is queued or in
  flight; the base `cycle` steps the clock and admits again. Both schedulers are machines over the
  simulator's three calls, started from the same set-up, and each call shows a `CallView`.

  * `Setup.fallbackRun`, `Setup.baseRun`: the two runs of a list of calls;
  * `fallback_clock`: the first `cycle` puts the fallback's clock ahead for good;
  * `fallback_refines_base`: the two runs show the same exactly when no `cycle` is called.
-/
import Ahasd.Scheduler.Runs

namespace Ahasd

open Std Transition OrderedMap

/-! ## 1. The two machines -/

/-- The calls the simulator makes to a language scheduler. -/
inductive LangCall where
  | cycle
  | popModel
  | finishModel (modelId : Nat)
  deriving DecidableEq, Repr

/-- What one call shows: the requests it admits, the batches it queues (request ids and sequence
    lengths), and after it the clock, the lengths of the active requests and the finish times of the
    requests it completes. -/
structure CallView where
  admitted : List Nat
  issued : List (List (Nat × Nat))
  clock : Nat
  lengths : List (Nat × Nat)
  finishTimes : List (Nat × Nat)
  deriving DecidableEq, Repr

namespace LangScheduler

/-- What an observer reads off the state before a call and the state after. -/
def view (s : LangScheduler) (call : LangCall) (s' : LangScheduler) : CallView where
  admitted := (s.requestQueue.take (s.requestQueue.length - s'.requestQueue.length)).map
    LangRequest.requestId
  issued := (s'.modelQueue.drop s.modelQueue.length).map fun m =>
    m.reqs.map fun i => (i.requestId, i.seqLength)
  clock := s'.cycleCount
  lengths := s'.activeRequests.toList.map fun kv => (kv.1, kv.2.currentLength)
  finishTimes :=
    match call with
    | .finishModel _ => s'.lastFinishedEvents.filterMap fun e =>
        if e.currentLength ≥ e.targetLength then some (e.requestId, s'.cycleCount) else none
    | _ => []

/-- The base scheduler's calls. -/
def call (s : LangScheduler) : LangCall → Option LangScheduler
  | .cycle => s.cycle
  | .popModel => s.popModel.map Prod.snd
  | .finishModel modelId => s.finishModel modelId

def machine : Machine LangScheduler LangCall CallView where
  step := call
  obs s a s' := [s.view a s']

end LangScheduler

namespace SpecDecodeScheduler

/-- The speculative scheduler's calls. -/
def call (s : SpecDecodeScheduler) : LangCall → Option SpecDecodeScheduler
  | .cycle => s.cycle
  | .popModel => s.popModel.map Prod.snd
  | .finishModel modelId => s.finishModel modelId

def callMachine : Machine SpecDecodeScheduler LangCall CallView where
  step := call
  obs s a s' := [s.toLangScheduler.view a s'.toLangScheduler]

/-- Nothing is queued and nothing is in flight. -/
def isIdle (s : LangScheduler) : Bool :=
  s.modelQueue.isEmpty && s.requestsInModel.isEmpty

end SpecDecodeScheduler

namespace Setup

/-- The run of the speculative scheduler over a list of calls. -/
def fallbackRun (c : Setup) (as : List LangCall) : Option (SpecDecodeScheduler × List CallView) :=
  c.start.bind (SpecDecodeScheduler.callMachine.run as)

/-- The run of the base scheduler over a list of calls, for the same model, trace and
    configuration. -/
def baseRun (c : Setup) (as : List LangCall) : Option (LangScheduler × List CallView) :=
  (LangScheduler.new c.draftModel c.config c.schedulerConfig c.rows c.globals).bind
    (LangScheduler.machine.run as)

end Setup

/-! ## 2. The clocks -/

namespace LangScheduler

theorem initInputsAndModel_cycleCount {s s' : LangScheduler} (h : s.initInputsAndModel = some s') :
    s'.cycleCount = s.cycleCount := by
  unfold initInputsAndModel at h
  dsimp only at h
  split at h
  · cases h
    rfl
  · split at h
    · cases h
    · split at h <;> cases h
      rfl

/-- A call of the base `cycle` is one tick. -/
theorem cycle_cycleCount {s s' : LangScheduler} (h : s.cycle = some s') :
    s'.cycleCount = s.cycleCount + 1 := by
  have hend : ∀ u : LangScheduler, u.cycleCount = s.cycleCount + 1 →
      (if u.modelQueue.isEmpty && u.requestsInModel.isEmpty then u.initInputsAndModel
        else some u) = some s' → s'.cycleCount = s.cycleCount + 1 := by
    intro u hu hs
    split at hs
    · exact (initInputsAndModel_cycleCount hs).trans hu
    · cases hs
      exact hu
  unfold cycle at h
  dsimp only at h
  split at h
  · exact hend _ (admitLoop_frame id { s with cycleCount := s.cycleCount + 1 }).1 h
  · exact hend _ rfl h

theorem finishRequests_frame {ids : List Nat} {s s' : LangScheduler}
    (h : finishRequests ids s = some s') : s'.cycleCount = s.cycleCount ∧
      s'.modelQueue = s.modelQueue ∧ s'.requestsInModel = s.requestsInModel :=
  finishRequests_of_finishRequest (P := fun t => t.cycleCount = s.cycleCount ∧
    t.modelQueue = s.modelQueue ∧ t.requestsInModel = s.requestsInModel)
    (fun _ _ _ _ hs => hs) h ⟨rfl, rfl, rfl⟩

/-- A completion takes no time, queues no model and forgets the finished one. -/
theorem finishModel_frame {s s' : LangScheduler} {modelId : Nat}
    (h : s.finishModel modelId = some s') : s'.cycleCount = s.cycleCount ∧
      s'.modelQueue = s.modelQueue ∧ s'.requestsInModel = s.requestsInModel.erase modelId := by
  unfold finishModel at h
  split at h
  · cases h
  · next t ht =>
      cases h
      obtain ⟨hclock, hqueue, hflight⟩ := finishRequests_frame ht
      exact ⟨hclock, hqueue, congrArg (TreeMap.erase · modelId) hflight⟩

/-- A call other than `cycle` takes no time. -/
theorem call_cycleCount {s s' : LangScheduler} {a : LangCall} (h : s.call a = some s') :
    s'.cycleCount = s.cycleCount + if a = .cycle then 1 else 0 := by
  cases a with
  | cycle => exact cycle_cycleCount h
  | popModel =>
      obtain ⟨⟨m, t⟩, hpop, rfl⟩ := Option.map_eq_some_iff.mp h
      unfold popModel at hpop
      split at hpop <;> cases hpop
      rfl
  | finishModel modelId => exact (finishModel_frame h).1

end LangScheduler

namespace SpecDecodeScheduler

/-- **A call of the fallback's `cycle` is one tick, and a second one when nothing is queued or in
    flight.** -/
theorem cycle_fallback {s s' : SpecDecodeScheduler} (ht : s.targetModel = none)
    (h : s.cycle = some s') :
    s'.targetModel = none ∧ s'.modelMeta = s.modelMeta ∧
      s'.cycleCount = s.cycleCount + if isIdle s.toLangScheduler then 2 else 1 := by
  have hadmitted : s.tickAndAdmit.targetModel = none ∧ s.tickAndAdmit.modelMeta = s.modelMeta ∧
      s.tickAndAdmit.cycleCount = s.cycleCount + 1 ∧
      s.tickAndAdmit.modelQueue = s.modelQueue ∧
      s.tickAndAdmit.requestsInModel = s.requestsInModel := by
    unfold tickAndAdmit
    dsimp only
    split
    · obtain ⟨hclock, -, hqueue, hflight⟩ := LangScheduler.admitLoop_frame
        (prepareRequest s.targetModel.isSome)
        { s.toLangScheduler with cycleCount := s.cycleCount + 1 }
      exact ⟨ht, rfl, hclock, hqueue, hflight⟩
    · exact ⟨ht, rfl, rfl, rfl, rfl⟩
  obtain ⟨hnone, hmeta, hclock, hqueue, hflight⟩ := hadmitted
  unfold cycle at h
  dsimp only at h
  rw [hnone, hqueue, hflight] at h
  simp only [Option.isNone_none, if_true] at h
  unfold isIdle
  split at h
  · next hidle =>
      obtain ⟨base, hbase, rfl⟩ := Option.map_eq_some_iff.mp h
      rw [if_pos hidle]
      refine ⟨rfl, hmeta, ?_⟩
      rw [LangScheduler.cycle_cycleCount hbase, hclock]
  · next hbusy =>
      cases h
      rw [if_neg hbusy]
      exact ⟨hnone, hmeta, hclock⟩

/-- Without a recorded model a completion is the base scheduler's. -/
theorem finishModel_fallback {s s' : SpecDecodeScheduler} (hm : ∀ mid : Nat, s.modelMeta[mid]? = none)
    {modelId : Nat} (h : s.finishModel modelId = some s') :
    ∃ base, s.toLangScheduler.finishModel modelId = some base ∧
      s' = { s with toLangScheduler := base } := by
  unfold finishModel at h
  rw [hm] at h
  obtain ⟨base, hbase, rfl⟩ := Option.map_eq_some_iff.mp h
  exact ⟨base, hbase, rfl⟩

/-- On an idle scheduler the calls other than `cycle` change nothing that is queued or in flight. -/
theorem idle_of_call {b b' : LangScheduler} {a : LangCall} (ha : a ≠ .cycle)
    (hidle : isIdle b = true) (h : b.call a = some b') : isIdle b' = true := by
  unfold isIdle at hidle ⊢
  rw [Bool.and_eq_true] at hidle ⊢
  cases a with
  | cycle => exact absurd rfl ha
  | popModel =>
      obtain ⟨⟨m, t⟩, hpop, _⟩ := Option.map_eq_some_iff.mp h
      unfold LangScheduler.popModel at hpop
      rw [List.isEmpty_iff.mp hidle.1] at hpop
      cases hpop
  | finishModel modelId =>
      obtain ⟨_, hqueue, hflight⟩ := LangScheduler.finishModel_frame h
      rw [hqueue, hflight, TreeMap.isEmpty_erase, hidle.2]
      exact ⟨hidle.1, rfl⟩

/-- The state of the fallback that every call keeps. -/
structure NoTarget (s : SpecDecodeScheduler) : Prop where
  target : s.targetModel = none
  noModel : ∀ mid : Nat, s.modelMeta[mid]? = none

/-- The calls other than `cycle` are the base scheduler's. -/
theorem NoTarget.call_base {s s' : SpecDecodeScheduler} (N : NoTarget s) {a : LangCall}
    (ha : a ≠ .cycle) (h : s.call a = some s') :
    ∃ base, s.toLangScheduler.call a = some base ∧ s' = { s with toLangScheduler := base } := by
  cases a with
  | cycle => exact absurd rfl ha
  | popModel =>
      obtain ⟨⟨m, t⟩, hpop, rfl⟩ := Option.map_eq_some_iff.mp h
      obtain ⟨⟨m', base⟩, hbase, heq⟩ := Option.map_eq_some_iff.mp hpop
      cases heq
      exact ⟨base, by unfold LangScheduler.call; rw [hbase]; rfl, rfl⟩
  | finishModel modelId => exact finishModel_fallback N.noModel h

theorem NoTarget.call {s s' : SpecDecodeScheduler} (N : NoTarget s) {a : LangCall}
    (h : s.call a = some s') : NoTarget s' ∧ s'.cycleCount = s.cycleCount +
      if a = .cycle then (if isIdle s.toLangScheduler then 2 else 1) else 0 := by
  by_cases ha : a = .cycle
  · subst ha
    obtain ⟨htarget, hmeta, hclock⟩ := cycle_fallback N.target h
    exact ⟨⟨htarget, by rw [hmeta]; exact N.noModel⟩, hclock⟩
  · obtain ⟨base, hbase, rfl⟩ := N.call_base ha h
    refine ⟨⟨N.target, N.noModel⟩, ?_⟩
    rw [if_neg ha]
    exact (LangScheduler.call_cycleCount hbase).trans (by rw [if_neg ha])

end SpecDecodeScheduler

/-! ## 3. The runs -/

namespace Setup

open SpecDecodeScheduler

variable {c : Setup} {as : List LangCall}

/-- Both schedulers start in the same state of the base scheduler, at cycle 0 with nothing
    queued. -/
theorem start_base {s : SpecDecodeScheduler} (h : c.start = some s) :
    LangScheduler.new c.draftModel c.config c.schedulerConfig c.rows c.globals =
      some s.toLangScheduler ∧ s.cycleCount = 0 ∧ isIdle s.toLangScheduler = true := by
  unfold start SpecDecodeScheduler.new at h
  cases hbase : LangScheduler.new c.draftModel c.config c.schedulerConfig c.rows c.globals with
  | none => rw [hbase] at h; cases h
  | some base =>
      have hfresh : base.cycleCount = 0 ∧ isIdle base = true := by
        unfold LangScheduler.new at hbase
        split at hbase
        · cases hbase
        · cases hbase
          exact ⟨rfl, rfl⟩
      rw [hbase] at h
      dsimp only at h
      cases ht : c.targetModel with
      | none => rw [ht] at h; cases h; exact ⟨rfl, hfresh⟩
      | some target => rw [ht] at h; cases h; exact ⟨rfl, hfresh⟩

theorem fallbackRun_snoc (c : Setup) (as : List LangCall) (a : LangCall) :
    c.fallbackRun (as ++ [a]) = (c.fallbackRun as).bind fun r =>
      (r.1.call a).map fun t => (t, r.2 ++ [r.1.toLangScheduler.view a t.toLangScheduler]) := by
  unfold fallbackRun
  cases c.start with
  | none => rfl
  | some s₀ => exact callMachine.run_snoc a as s₀

theorem baseRun_snoc (c : Setup) (as : List LangCall) (a : LangCall) :
    c.baseRun (as ++ [a]) = (c.baseRun as).bind fun r =>
      (r.1.call a).map fun t => (t, r.2 ++ [r.1.view a t]) := by
  unfold baseRun
  cases LangScheduler.new c.draftModel c.config c.schedulerConfig c.rows c.globals with
  | none => rfl
  | some b₀ => exact LangScheduler.machine.run_snoc a as b₀

/-- The clock of the base scheduler counts the calls of `cycle`, and every call shows it. -/
theorem base_clock {b : LangScheduler} {views : List CallView}
    (h : c.baseRun as = some (b, views)) : b.cycleCount = as.count .cycle ∧
      (as ≠ [] → views.getLast?.map CallView.clock = some b.cycleCount) := by
  induction as using List.reverseRecOn generalizing b views with
  | nil =>
      obtain ⟨b₀, hnew, heq⟩ := Option.bind_eq_some_iff.mp h
      cases heq
      unfold LangScheduler.new at hnew
      split at hnew <;> cases hnew
      exact ⟨rfl, fun hne => absurd rfl hne⟩
  | append_singleton as a ih =>
      rw [baseRun_snoc] at h
      obtain ⟨⟨b₀, views₀⟩, hrun, hlast⟩ := Option.bind_eq_some_iff.mp h
      obtain ⟨t, hcall, heq⟩ := Option.map_eq_some_iff.mp hlast
      cases heq
      refine ⟨?_, fun _ => by rw [List.getLast?_concat]; rfl⟩
      rw [LangScheduler.call_cycleCount hcall, (ih hrun).1, List.count_append,
        List.count_singleton]
      simp only [beq_iff_eq]

/-- **The clock of the fallback**: still 0 before the first `cycle`, and from then on ahead of the
    number of `cycle` calls. -/
theorem fallback_clock (ht : c.targetModel = none) {s : SpecDecodeScheduler} {views : List CallView}
    (h : c.fallbackRun as = some (s, views)) : NoTarget s ∧
      (.cycle ∉ as → isIdle s.toLangScheduler = true ∧ s.cycleCount = 0) ∧
      (.cycle ∈ as → as.count .cycle < s.cycleCount) ∧
      (as ≠ [] → views.getLast?.map CallView.clock = some s.cycleCount) := by
  induction as using List.reverseRecOn generalizing s views with
  | nil =>
      obtain ⟨s₀, hstart, heq⟩ := Option.bind_eq_some_iff.mp h
      cases heq
      have F := Setup.start_fresh hstart
      obtain ⟨_, hclock, hidle⟩ := start_base hstart
      exact ⟨⟨F.target.trans ht, F.noModel⟩, fun _ => ⟨hidle, hclock⟩,
        fun hmem => absurd hmem List.not_mem_nil, fun hne => absurd rfl hne⟩
  | append_singleton as a ih =>
      rw [fallbackRun_snoc] at h
      obtain ⟨⟨s₀, views₀⟩, hrun, hlast⟩ := Option.bind_eq_some_iff.mp h
      obtain ⟨t, hcall, heq⟩ := Option.map_eq_some_iff.mp hlast
      cases heq
      obtain ⟨N, hbefore, hahead, _⟩ := ih hrun
      obtain ⟨N', hclock⟩ := N.call hcall
      refine ⟨N', fun hno => ?_, fun hcycle => ?_, fun _ => by rw [List.getLast?_concat]; rfl⟩
      · rw [List.mem_append, List.mem_singleton, not_or] at hno
        obtain ⟨hidle, hzero⟩ := hbefore hno.1
        obtain ⟨base, hbase, rfl⟩ := N.call_base (fun ha => hno.2 ha.symm) hcall
        rw [if_neg (fun ha => hno.2 ha.symm), hzero] at hclock
        exact ⟨idle_of_call (fun ha => hno.2 ha.symm) hidle hbase, hclock⟩
      · rw [hclock, List.count_append, List.count_singleton]
        by_cases hmem : .cycle ∈ as
        · have := hahead hmem
          by_cases ha : a = .cycle
          · simp only [ha, if_true, beq_self_eq_true]
            split <;> omega
          · simp only [ha, if_false, beq_iff_eq]
            omega
        · obtain ⟨hidle, hzero⟩ := hbefore hmem
          have hcount : as.count .cycle = 0 := List.count_eq_zero.mpr hmem
          by_cases ha : a = .cycle
          · simp only [ha, if_true, beq_self_eq_true, hidle]
            omega
          · rcases List.mem_append.mp hcycle with hold | hnew
            · exact absurd hold hmem
            · exact absurd (List.mem_singleton.mp hnew).symm ha

/-- Before the first `cycle` the two schedulers are in the same state and show the same. -/
theorem fallback_base (ht : c.targetModel = none) {s : SpecDecodeScheduler} {views : List CallView}
    (h : c.fallbackRun as = some (s, views)) (hno : .cycle ∉ as) :
    c.baseRun as = some (s.toLangScheduler, views) := by
  induction as using List.reverseRecOn generalizing s views with
  | nil =>
      obtain ⟨s₀, hstart, heq⟩ := Option.bind_eq_some_iff.mp h
      cases heq
      unfold baseRun
      rw [(start_base hstart).1]
      rfl
  | append_singleton as a ih =>
      rw [List.mem_append, List.mem_singleton, not_or] at hno
      rw [fallbackRun_snoc] at h
      obtain ⟨⟨s₀, views₀⟩, hrun, hlast⟩ := Option.bind_eq_some_iff.mp h
      obtain ⟨t, hcall, heq⟩ := Option.map_eq_some_iff.mp hlast
      cases heq
      have N := (fallback_clock ht hrun).1
      obtain ⟨base, hbase, rfl⟩ := N.call_base (fun ha => hno.2 ha.symm) hcall
      rw [baseRun_snoc, ih hrun hno.1, Option.bind_some, hbase]
      rfl

end Setup

/-- **The fallback shows what the base scheduler shows exactly when no `cycle` is called**: the
    first one steps the clock twice. -/
theorem fallback_refines_base {c : Setup} (ht : c.targetModel = none) {as : List LangCall}
    {s : SpecDecodeScheduler} {views : List CallView} (h : c.fallbackRun as = some (s, views)) :
    (∃ b, c.baseRun as = some (b, views)) ↔ .cycle ∉ as := by
  obtain ⟨_, _, hahead, hlast⟩ := Setup.fallback_clock ht h
  constructor
  · rintro ⟨b, hb⟩ hcycle
    obtain ⟨hcount, hlast'⟩ := Setup.base_clock hb
    have hne : as ≠ [] := List.ne_nil_of_mem hcycle
    have hsame : b.cycleCount = s.cycleCount :=
      Option.some.inj ((hlast' hne).symm.trans (hlast hne))
    have := hahead hcycle
    omega
  · exact fun hno => ⟨_, Setup.fallback_base ht h hno⟩

/-- One request and no target model. -/
def singleModelSetup : Setup :=
  { sampleSetup [⟨0, 4, 9, 1⟩] [] with targetModel := none }

/-- A completion nobody waits for shows the same in both. -/
theorem fallback_refines_base_sample : ∃ s views b,
    singleModelSetup.fallbackRun [.finishModel 7] = some (s, views) ∧
      singleModelSetup.baseRun [.finishModel 7] = some (b, views) := by
  obtain ⟨⟨s, views⟩, hrun⟩ := Option.isSome_iff_exists.mp
    (show (singleModelSetup.fallbackRun [.finishModel 7]).isSome = true by decide +kernel)
  obtain ⟨b, hb⟩ := (fallback_refines_base rfl hrun).mpr (by decide)
  exact ⟨s, views, b, hrun, hb⟩

/-- One `cycle` takes the fallback's clock to 2 and the base scheduler's to 1. -/
theorem fallback_ticks_twice : ¬ ∀ (c : Setup) (as : List LangCall) (s : SpecDecodeScheduler)
    (views : List CallView), c.targetModel = none → c.fallbackRun as = some (s, views) →
    ∃ b, c.baseRun as = some (b, views) := by
  intro hclaim
  have hfacts : ((singleModelSetup.fallbackRun [.cycle]).any fun r =>
      (singleModelSetup.baseRun [.cycle]).all fun r' => decide (r'.2 ≠ r.2)) = true := by
    decide +kernel
  obtain ⟨⟨s, views⟩, hrun, hdiffer⟩ := (Option.any_eq_true _ _).mp hfacts
  obtain ⟨b, hb⟩ := hclaim singleModelSetup [.cycle] s views rfl hrun
  rw [hb] at hdiffer
  exact of_decide_eq_true hdiffer rfl

end Ahasd
