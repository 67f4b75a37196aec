/-
  File:      Ahasd/Backends/Drains.lean
  Subject:   THE MEMORY SIDE DRAINS: with the clocks running and no new requests, every request
             comes back to its core.

  A request goes at most nine steps (`rank`), so a run without new requests makes its last transfer
  at some time. A cycle without a transfer says of every queue why its front stays (`Idle`): it has
  none, or the front is not due. The clocks go on, so there is none.

  * `Idle`, `op_silent`, `runOps_silent`: the parts of a cycle that transfers nothing;
  * `Still`: what an act without a transfer leaves as it is;
  * `Draining`: no new requests, and every clock ticks again and again;
  * **`drains`**: then there is a time from which on nothing is anywhere.
-/
import Ahasd.Lib.InfiniteRun
import Ahasd.Backends.Refinement
import Ahasd.Simulator.CommandSelection
import Ahasd.Simulator.Holds
import Ahasd.Simulator.Occupancy

namespace Ahasd

open Transition Simulator

namespace MemorySystem

variable {t t' : MemorySystem}

/-! ## 1. The parts of a cycle that transfers nothing -/

/-- Only the counters of the PIM commands are others. -/
def withStats (t : MemorySystem) (st : PimCommandIssueStats) : MemorySystem :=
  { t with sim := { t.sim with pimCmdStats := st } }

/-- Nothing at the front of a queue of the overlay is due. -/
def NotDue (t : MemorySystem) (queue : List (Nat × MemoryAccess)) : Prop :=
  ∀ e ∈ queue.head?, ¬(t.sim.pim.active = true ∧ e.1 ≤ t.sim.coreCycles)

/-- Why a part has nothing to transfer. -/
def Idle (t : MemorySystem) : Op → Prop
  | .coreRequest coreId => (t.sim.cores coreId).requestQueue = []
  | .coreResponse coreId => t.icnt.outBuffers coreId = []
  | .noteCandidate _ | .refill _ => True
  | .drainHold memId => t.NotDue (t.sim.channels memId).pimHoldQueue
  | .issue memId => t.view.incoming (t.dram.isFull memId) memId = none
  | .drainBypass memId => t.NotDue (t.sim.channels memId).pimBypassQueue
  | .drainSsrcBypass memId => t.NotDue (t.sim.channels memId).pimSsrcBypassQueue
  | .dramResponse memId => t.dram.responseQueue memId = []

theorem idle_withStats (t : MemorySystem) (st : PimCommandIssueStats) (o : Op) :
    (t.withStats st).Idle o ↔ t.Idle o := by
  cases o <;> exact Iff.rfl

theorem notDue_nil (t : MemorySystem) : t.NotDue [] := fun _ h => nomatch h

theorem refillLoop_silent {memId : Nat} (n : Nat) {t : MemorySystem}
    (h : (refillLoop memId n t).2 = []) : (refillLoop memId n t).1 = t := by
  cases n with
  | zero => rfl
  | succ n =>
      unfold refillLoop at h ⊢
      split
      · rfl
      · next front hq =>
          simp only [hq] at h
          split at h
          · cases h
          · next hfull => rw [if_neg hfull]

/-- **A part that transfers nothing** changes nothing, and has a reason. -/
theorem op_silent {o : Op} (h : (t.op o).2 = []) :
    (∃ st, (t.op o).1 = t.withStats st) ∧ t.Idle o := by
  have hsame : ∃ st, t = t.withStats st := ⟨t.sim.pimCmdStats, rfl⟩
  cases o with
  | coreRequest coreId =>
      simp only [op, coreRequest, Idle] at h ⊢
      split at h
      · next hq => simpa only [hq] using ⟨hsame, trivial⟩
      · simp [SimpleInterconnect.isFull] at h
  | coreResponse coreId =>
      simp only [op, coreResponse, Idle] at h ⊢
      split at h
      · next hq =>
          dsimp only
          exact ⟨hsame, List.head?_eq_none_iff.mp hq⟩
      · cases h
  | noteCandidate memId => exact ⟨⟨_, rfl⟩, trivial⟩
  | drainHold memId =>
      simp only [op, drainHold, Idle] at h ⊢
      split at h
      · next hq => simpa only [hq] using ⟨hsame, t.notDue_nil⟩
      · next deadline front rest hq =>
          split at h
          · cases h
          · next hnot =>
              simp only [hq, if_neg hnot]
              refine ⟨hsame, fun e he hdue => hnot ⟨hdue.1, ?_, rfl⟩⟩
              cases he
              exact hdue.2
  | refill memId =>
      simp only [op, refill] at h ⊢
      refine ⟨?_, trivial⟩
      split at h
      · next hpim =>
          rw [if_pos hpim, refillLoop_silent _ h]
          exact hsame
      · next hpim =>
          rw [if_neg hpim]
          exact hsame
  | issue memId =>
      simp only [op, issue, Idle] at h ⊢
      cases hin : t.view.incoming (t.dram.isFull memId) memId with
      | none => exact ⟨⟨_, rfl⟩, rfl⟩
      | some r =>
          simp only [hin, SimpleDram.isFull, Bool.false_eq_true, if_false, accept] at h
          cases h
  | drainBypass memId =>
      simp only [op, drainBypass, Idle] at h ⊢
      split at h
      · next hq => simpa only [hq] using ⟨hsame, t.notDue_nil⟩
      · next ready front rest hq =>
          split at h
          · cases h
          · next hnot =>
              simp only [hq, if_neg hnot]
              refine ⟨hsame, fun e he hdue => hnot ⟨hdue.1, ?_, rfl⟩⟩
              cases he
              exact hdue.2
  | drainSsrcBypass memId =>
      simp only [op, drainSsrcBypass, Idle] at h ⊢
      split at h
      · next hq => simpa only [hq] using ⟨hsame, t.notDue_nil⟩
      · next ready front rest hq =>
          split at h
          · cases h
          · next hnot =>
              simp only [hq, if_neg hnot]
              refine ⟨hsame, fun e he hdue => hnot ⟨hdue.1, ?_, rfl⟩⟩
              cases he
              exact hdue.2
  | dramResponse memId =>
      simp only [op, dramResponse, Idle] at h ⊢
      split at h
      · next hq =>
          dsimp only
          exact ⟨hsame, List.head?_eq_none_iff.mp hq⟩
      · simp [SimpleInterconnect.isFull, sendBack] at h

theorem runOps_silent : ∀ (os : List Op) (t : MemorySystem), (runOps os t).2 = [] →
    (∃ st, (runOps os t).1 = t.withStats st) ∧ ∀ o ∈ os, t.Idle o := by
  intro os
  induction os with
  | nil => exact fun t _ => ⟨⟨t.sim.pimCmdStats, rfl⟩, fun _ h => nomatch h⟩
  | cons o os ih =>
      intro t h
      obtain ⟨hfirst, hrest⟩ := List.append_eq_nil_iff.mp h
      obtain ⟨⟨st, hst⟩, hidle⟩ := op_silent hfirst
      obtain ⟨⟨st', hst'⟩, hidles⟩ := ih _ hrest
      rw [hst] at hst' hidles
      refine ⟨⟨st', ?_⟩, fun o' ho' => ?_⟩
      · simp only [runOps, hst]
        exact hst'
      · rcases List.mem_cons.mp ho' with rfl | ho'
        · exact hidle
        · exact (idle_withStats t st o').mp (hidles o' ho')

end MemorySystem

/-! ## 2. The cycles of the backends -/

namespace SimpleInterconnect

variable {s : SimpleInterconnect}

theorem serveAll_still (hs : ∀ src, s.wants src = none) (nodes : List Nat) :
    serveAll nodes s = (s, []) := by
  induction nodes with
  | nil => rfl
  | cons node nodes ih =>
      have hnode : s.serve node = (s, []) := serve_still fun d hd => by rw [hs node] at hd; cases hd
      simp only [serveAll, hnode, ih, List.nil_append]

/-- Something is brought over if anything is due. -/
theorem Sound.brings (hs : s.Sound) {src d : Nat} (hw : s.wants src = some d) :
    ∃ src' d' access, IcntEvent.brought src' d' access ∈ s.cycle.2 := by
  have hm := RoundRobin.grants_matching s.wants s.order s.busyNode
  have hsrc : src ∈ s.order := by
    rw [hs.order_eq, RoundRobin.mem_turns]
    refine Nat.lt_of_not_le fun hle => ?_
    simp [wants, hs.inside src hle] at hw
  obtain ⟨p, hp⟩ : ∃ p, p ∈ RoundRobin.grants s.wants s.order s.busyNode := by
    rcases hm.maximal src hsrc d hw with hbusy | hd
    · rw [hs.idle d] at hbusy
      cases hbusy
    · obtain ⟨p, hp, -⟩ := List.mem_map.mp hd
      exact ⟨p, hp⟩
  have hwanted := hm.wanted p hp
  unfold wants at hwanted
  cases hq : s.inBuffers p.1 with
  | nil => rw [hq] at hwanted; cases hwanted
  | cons front rest =>
      refine ⟨p.1, p.2, front.access, ?_⟩
      have hevents : s.cycle.2 =
          (RoundRobin.grants s.wants s.order s.busyNode).filterMap s.bring := hs.pass.events
      rw [hevents, List.mem_filterMap]
      exact ⟨p, hp, by simp [bring, hq]⟩

end SimpleInterconnect

namespace MemorySystem

variable {t t' : MemorySystem}

/-- **A cycle of the interconnect that brings nothing over** found nothing due. -/
theorem icntStep_silent (hs : t.icnt.Sound) (h : t.icntStep.2 = []) :
    (∀ src, t.icnt.wants src = none) ∧
      t.icntStep.1.icnt.inBuffers = t.icnt.inBuffers ∧
      t.icntStep.1.icnt.outBuffers = t.icnt.outBuffers ∧
      t.icntStep.1.icnt.cycles = t.icnt.cycles + 1 := by
  have hwants : ∀ src, t.icnt.wants src = none := by
    intro src
    cases hw : t.icnt.wants src with
    | none => rfl
    | some d =>
        obtain ⟨src', d', access, hmem⟩ := hs.brings hw
        have hnone := List.flatMap_eq_nil_iff.mp h _ hmem
        cases hnone
  refine ⟨hwants, ?_⟩
  simp [icntStep, SimpleInterconnect.cycle, SimpleInterconnect.serveAll_still hwants]

/-- **A DRAM cycle** answers what is due at the front of each channel, and nothing else. -/
theorem dramCycle_silent (t : MemorySystem) (m : Nat) :
    (∃ answered, t.dramCycle.dram.responseQueue m = t.dram.responseQueue m ++ answered) ∧
      (t.dramCycle.dram.responseQueue m = t.dram.responseQueue m →
        t.dramCycle.dram.waitingQueue m = t.dram.waitingQueue m) ∧
      ∀ e ∈ (t.dram.waitingQueue m).head?, m < t.dram.nCh → e.1 ≤ t.dram.cycles →
        t.dramCycle.dram.responseQueue m ≠ [] := by
  have hpass := SimpleDram.serveAll_pass (List.range t.dram.nCh) t.dram List.nodup_range
  have hresponses : t.dramCycle.dram.responseQueue m = _ := hpass.responses m
  have hwaiting : t.dramCycle.dram.waitingQueue m = _ := hpass.waiting m
  rw [hpass.answers m] at hresponses
  refine ⟨⟨_, hresponses⟩, fun hsame => ?_, fun e he hm hdue => ?_⟩
  · rw [hwaiting]
    rw [hresponses, List.append_right_eq_self, List.map_eq_nil_iff] at hsame
    split at hsame
    · next hm =>
        rw [if_pos hm]
        unfold answerOf at hsame ⊢
        split at hsame
        · next hq => rw [hq]
        · next finish access rest hq =>
            rw [hq]
            split at hsame
            · cases hsame
            · next hnot => rw [if_neg hnot]
    · next hm => rw [if_neg hm]
  · obtain ⟨rest, hq⟩ := List.head?_eq_some_iff.mp he
    rw [hresponses, if_pos (List.mem_range.mpr hm), hq]
    simp [answerOf, hdue]

/-! ## 3. What holds of every state a run reaches -/

theorem op_sound (hs : t.icnt.Sound) (hw : t.Wired) {o : Op} (ho : Inside t.sim o) :
    (t.op o).1.icnt.Sound := by
  have hmem : ∀ memId, memId < t.sim.nMemories → t.memNode memId < t.icnt.nNodes := by
    intro memId hlt
    rw [hw.nNodes]
    exact Nat.add_lt_add_left hlt _
  have hpop : ∀ node, (t.icnt.pop node).Sound := fun node =>
    ⟨hs.small, hs.wraps, hs.idle, hs.inside, hs.spaced, hs.front⟩
  cases o with
  | coreRequest coreId =>
      simp only [op, coreRequest]
      split
      · exact hs
      · split
        · exact hs
        · exact hs.push (by rw [hw.nNodes]; exact Nat.lt_add_right _ ho)
  | coreResponse coreId =>
      simp only [op, coreResponse]
      split
      · exact hs
      · exact hpop coreId
  | noteCandidate memId => exact hs
  | drainHold memId =>
      simp only [op, drainHold]
      split
      · exact hs
      · split <;> exact hs
  | refill memId =>
      have hloop : ∀ (n : Nat) (t : MemorySystem), t.icnt.Sound →
          (refillLoop memId n t).1.icnt.Sound := by
        intro n
        induction n with
        | zero => exact fun t hs => hs
        | succ n ih =>
            intro t hs
            unfold refillLoop
            split
            · exact hs
            · split
              · exact ih _ ⟨hs.small, hs.wraps, hs.idle, hs.inside, hs.spaced, hs.front⟩
              · exact hs
      simp only [op, refill]
      split
      · exact hloop _ t hs
      · exact hs
  | issue memId =>
      simp only [op, issue]
      split
      · exact hs
      · next front index _ =>
          split
          · exact hs
          · unfold accept
            generalize Simulator.route _ _ _ = r
            obtain ⟨landing, pim, ssrc⟩ := r
            cases index <;> cases landing <;> first | exact hs | exact hpop _
  | drainBypass memId =>
      simp only [op, drainBypass]
      split
      · exact hs
      · split
        · exact hs.push (hmem memId ho)
        · exact hs
  | drainSsrcBypass memId =>
      simp only [op, drainSsrcBypass]
      split
      · exact hs
      · split
        · exact hs.push (hmem memId ho)
        · exact hs
  | dramResponse memId =>
      simp only [op, dramResponse]
      split
      · exact hs
      · split
        · exact hs
        · exact hs.push (hmem memId ho)

theorem runOps_sound : ∀ (os : List Op) (t : MemorySystem), t.icnt.Sound → t.Wired →
    (∀ o ∈ os, Inside t.sim o) → (runOps os t).1.icnt.Sound := by
  intro os
  induction os with
  | nil => exact fun t hs _ _ => hs
  | cons o os ih =>
      intro t hs hw hos
      have hfirst := hos o List.mem_cons_self
      have halike := (op_matches hw hfirst).1
      exact ih _ (op_sound hs hw hfirst) (halike.wired hw) fun o' ho' =>
        (hos o' (List.mem_cons_of_mem o ho')).alike halike

theorem exec_sound (hs : t.icnt.Sound) (hw : t.Wired) {a : SystemAct} {e : List Transfer}
    (h : t.exec a = some (t', e)) : t'.icnt.Sound := by
  cases a with
  | side a =>
      simp only [exec] at h
      split at h
      · obtain ⟨_, -, heq⟩ := Option.map_eq_some_iff.mp h
        cases heq
        exact hs
      · cases h
  | dramCycle =>
      cases h
      exact hs
  | icntCycle =>
      cases h
      exact (runOps_sound t.sim.ops t hs hw (ops_inside t.sim)).cycle

theorem exec_wired (hw : t.Wired) {a : SystemAct} {e : List Transfer}
    (h : t.exec a = some (t', e)) : t'.Wired := by
  cases a with
  | side a =>
      simp only [exec] at h
      split at h
      · next haside =>
          obtain ⟨_, hsim, heq⟩ := Option.map_eq_some_iff.mp h
          cases heq
          exact (side_view haside hsim).1.wired hw
      · cases h
  | dramCycle =>
      cases h
      exact (dramCycle_follows t).1.wired hw
  | icntCycle =>
      cases h
      have hloop := (runOps_matches t.sim.ops t hw (ops_inside t.sim)).1
      exact (icntStep_follows _).1.wired (hloop.wired hw)

/-- What holds of a state, and of the transfers that led to it. -/
structure Reached (t : MemorySystem) (h : List Transfer) : Prop where
  wired : t.Wired
  sound : t.icnt.Sound
  account : Account t.view h
  overlay : ∀ p, p.overlay = true → t.view.contents p ≠ [] →
    ∃ m, p.memId = some m ∧ t.sim.isPimChannel m = true
  beyond : ∀ m, t.sim.nMemories ≤ m → t.view.channels m = {}

end MemorySystem

theorem MemorySystemSetup.reached (c : MemorySystemSetup) {as : List SystemAct}
    {t : MemorySystem} {h : List Transfer} (hr : c.run as = some (t, h)) : t.Reached h := by
  obtain ⟨bs, a, hbs, href⟩ := c.refines hr
  have haccount := href.account (MemorySetup.account hbs)
  have hsound : t.icnt.Sound := by
    have hboth := (exec_of_run hr).invariant
      (P := fun t _ => t.icnt.Sound ∧ t.Wired)
      ⟨SimpleInterconnect.new_sound c.nodes c.noWrap, c.start_refines.wired⟩ ?_
    · exact hboth.1
    · rintro t h a t' ⟨hs, hw⟩ hstep
      obtain ⟨⟨t₁, e⟩, he, rfl⟩ := Option.map_eq_some_iff.mp hstep
      exact ⟨MemorySystem.exec_sound hs hw he, MemorySystem.exec_wired hw he⟩
  obtain ⟨hw, toMemory, toCore, rfl, hb⟩ := href
  refine ⟨hw, hsound, haccount, fun p hp hne => ?_, fun m hm => ?_⟩
  · refine overlay_occupied c.memorySetup hbs hp ?_
    cases p <;> first | exact Bool.noConfusion hp | exact hne
  · exact (beyond_empty c.memorySetup (fun address => c.start_refines.wired.channelId address)
      hbs).channels m hm

/-! ## 4. Acts that transfer nothing -/

/-- The act makes a request. -/
def SystemAct.requests : SystemAct → Bool
  | .side (.load ..) | .side (.store ..) => true
  | _ => false

namespace MemorySystem

variable {t t' t'' : MemorySystem}

/-- What an act that transfers nothing leaves as it is: the queues, but for what the DRAM answers;
    and no clock goes back. -/
structure Still (t t' : MemorySystem) : Prop where
  nCores : t'.sim.nCores = t.sim.nCores
  config : t'.sim.config = t.sim.config
  requestQueue : ∀ c, (t'.sim.cores c).requestQueue = (t.sim.cores c).requestQueue
  channels : t'.sim.channels = t.sim.channels
  inBuffers : t'.icnt.inBuffers = t.icnt.inBuffers
  outBuffers : t'.icnt.outBuffers = t.icnt.outBuffers
  responses : ∀ m, ∃ answered, t'.dram.responseQueue m = t.dram.responseQueue m ++ answered
  waiting : ∀ m, t'.dram.responseQueue m = t.dram.responseQueue m →
    t'.dram.waitingQueue m = t.dram.waitingQueue m
  coreCycles : t.sim.coreCycles ≤ t'.sim.coreCycles
  icntCycles : t.icnt.cycles ≤ t'.icnt.cycles
  dramCycles : t.dram.cycles ≤ t'.dram.cycles

/-- The backends are the same. -/
theorem Still.of_sim {sim : Simulator} (hn : sim.nCores = t.sim.nCores)
    (hconfig : sim.config = t.sim.config)
    (hq : ∀ c, (sim.cores c).requestQueue = (t.sim.cores c).requestQueue)
    (hch : sim.channels = t.sim.channels) (hclock : t.sim.coreCycles ≤ sim.coreCycles) :
    Still t { t with sim := sim } :=
  ⟨hn, hconfig, hq, hch, rfl, rfl, fun _ => ⟨[], (List.append_nil _).symm⟩, fun _ _ => rfl, hclock,
    Nat.le_refl _, Nat.le_refl _⟩

theorem Still.refl (t : MemorySystem) : Still t t := .of_sim rfl rfl (fun _ => rfl) rfl (Nat.le_refl _)

theorem Still.trans (h : Still t t') (h' : Still t' t'') : Still t t'' := by
  refine ⟨h'.nCores.trans h.nCores, h'.config.trans h.config,
    fun c => (h'.requestQueue c).trans (h.requestQueue c), h'.channels.trans h.channels,
    h'.inBuffers.trans h.inBuffers, h'.outBuffers.trans h.outBuffers, fun m => ?_, fun m heq => ?_,
    h.coreCycles.trans h'.coreCycles, h.icntCycles.trans h'.icntCycles,
    h.dramCycles.trans h'.dramCycles⟩
  · obtain ⟨answered, ha⟩ := h.responses m
    obtain ⟨answered', ha'⟩ := h'.responses m
    exact ⟨answered ++ answered', by rw [ha', ha, List.append_assoc]⟩
  · -- nothing was answered in either part
    obtain ⟨answered, ha⟩ := h.responses m
    obtain ⟨answered', ha'⟩ := h'.responses m
    rw [ha', ha, List.append_assoc, List.append_right_eq_self, List.append_eq_nil_iff] at heq
    rw [heq.1, List.append_nil] at ha
    rw [heq.2, List.append_nil] at ha'
    exact (h'.waiting m ha').trans (h.waiting m ha)

/-- **A cycle without a transfer** finds nothing due, and only the clock goes on. -/
theorem icntCycle_silent (hs : t.icnt.Sound) (h : t.icntCycle.2 = []) :
    (∀ o ∈ t.sim.ops, t.Idle o) ∧ (∀ src, t.icnt.wants src = none) ∧ Still t t.icntCycle.1 ∧
      t.icntCycle.1.icnt.cycles = t.icnt.cycles + 1 := by
  obtain ⟨hloop, hstep⟩ := List.append_eq_nil_iff.mp h
  obtain ⟨⟨st, hst⟩, hidle⟩ := runOps_silent t.sim.ops t hloop
  have hcycle : t.icntCycle.1 = (t.withStats st).icntStep.1 := by
    simp only [icntCycle, hst]
  rw [hst] at hstep
  have hs' : (t.withStats st).icnt.Sound := hs
  obtain ⟨hwants, hin, hout, hclock⟩ := icntStep_silent hs' hstep
  rw [hcycle]
  refine ⟨hidle, hwants, ⟨rfl, rfl, fun _ => rfl, rfl, hin, hout,
    fun _ => ⟨[], (List.append_nil _).symm⟩, fun _ _ => rfl, Nat.le_refl _, ?_, Nat.le_refl _⟩,
    hclock⟩
  rw [hclock]
  exact Nat.le_succ _

theorem dramCycle_still (t : MemorySystem) :
    Still t t.dramCycle ∧ t.dramCycle.dram.cycles = t.dram.cycles + 1 := by
  have hclock : t.dramCycle.dram.cycles = t.dram.cycles + 1 :=
    congrArg (· + 1) (SimpleDram.serveAll_pass (List.range t.dram.nCh) t.dram List.nodup_range).cycles
  refine ⟨⟨rfl, rfl, fun _ => rfl, rfl, rfl, rfl, fun m => (t.dramCycle_silent m).1,
    fun m => (t.dramCycle_silent m).2.1, Nat.le_refl _, Nat.le_refl _, ?_⟩, hclock⟩
  rw [hclock]
  exact Nat.le_succ _

/-- **An act without a transfer leaves the queues.** -/
theorem exec_still (hs : t.icnt.Sound) {a : SystemAct} (ha : a.requests = false)
    (h : t.exec a = some (t', [])) : Still t t' := by
  cases a with
  | dramCycle =>
      cases h
      exact t.dramCycle_still.1
  | icntCycle =>
      have hcycle : t.icntCycle = (t', []) := Option.some.inj h
      obtain ⟨-, -, hstill, -⟩ := icntCycle_silent hs (congrArg Prod.snd hcycle)
      rwa [hcycle] at hstill
  | side a =>
      simp only [exec] at h
      split at h
      · next haside =>
          obtain ⟨⟨sim, e⟩, hsim, heq⟩ := Option.map_eq_some_iff.mp h
          cases heq
          cases a with
          | load | store => cases ha
          | deliver | answer | icntCycle => cases haside
          | coreCycle =>
              cases hsim
              exact .of_sim rfl rfl (fun _ => rfl) rfl (Nat.le_succ _)
          | pimCycle | requestGtsuSwitch | switchAllPimTo | scheduleHold | ssrc =>
              cases hsim
              exact .of_sim rfl rfl (fun _ => rfl) rfl (Nat.le_refl _)
      · cases h

/-! ## 5. The transfers of a run without new requests -/

theorem op_src {o : Op} : ∀ v ∈ (t.op o).2, v.src ≠ none := by
  have hone : ∀ {w : Transfer} {p : Place}, w.src = some p → ∀ v ∈ [w], v.src ≠ none := by
    intro w p hw v hv
    rw [List.mem_singleton.mp hv, hw]
    exact Option.some_ne_none p
  have hnone : ∀ v ∈ ([] : List Transfer), v.src ≠ none := fun _ h => nomatch h
  cases o with
  | coreRequest coreId =>
      simp only [op, coreRequest]
      split
      · exact hnone
      · split
        · exact hnone
        · exact hone rfl
  | coreResponse coreId =>
      simp only [op, coreResponse]
      split
      · exact hnone
      · exact hone rfl
  | noteCandidate memId => exact hnone
  | drainHold memId =>
      simp only [op, drainHold]
      split
      · exact hnone
      · split
        · exact hone rfl
        · exact hnone
  | refill memId =>
      have hloop : ∀ (n : Nat) (t : MemorySystem), ∀ v ∈ (refillLoop memId n t).2, v.src ≠ none := by
        intro n
        induction n with
        | zero => exact fun _ => hnone
        | succ n ih =>
            intro t
            unfold refillLoop
            split
            · exact hnone
            · split
              · intro v hv
                rcases List.mem_cons.mp hv with rfl | hv
                · exact Option.some_ne_none _
                · exact ih _ v hv
              · exact hnone
      simp only [op, refill]
      split
      · exact hloop _ t
      · exact hnone
  | issue memId =>
      simp only [op, issue]
      split
      · exact hnone
      · split
        · exact hnone
        · exact hone rfl
  | drainBypass memId =>
      simp only [op, drainBypass]
      split
      · exact hnone
      · split
        · exact hone rfl
        · exact hnone
  | drainSsrcBypass memId =>
      simp only [op, drainSsrcBypass]
      split
      · exact hnone
      · split
        · exact hone rfl
        · exact hnone
  | dramResponse memId =>
      simp only [op, dramResponse]
      split
      · exact hnone
      · split
        · exact hnone
        · exact hone rfl

theorem runOps_src : ∀ (os : List Op) (t : MemorySystem), ∀ v ∈ (runOps os t).2, v.src ≠ none := by
  intro os
  induction os with
  | nil => exact fun _ _ h => nomatch h
  | cons o os ih =>
      intro t v hv
      rcases List.mem_append.mp hv with hv | hv
      · exact op_src v hv
      · exact ih _ v hv

/-- Without new requests, every transfer comes from a place. -/
theorem exec_src {a : SystemAct} {e : List Transfer} (ha : a.requests = false)
    (h : t.exec a = some (t', e)) : ∀ v ∈ e, v.src ≠ none := by
  cases a with
  | dramCycle =>
      cases h
      intro v hv
      cases hv
  | icntCycle =>
      cases h
      intro v hv
      rcases List.mem_append.mp hv with hv | hv
      · exact runOps_src _ t v hv
      · obtain ⟨event, -, hv⟩ := List.mem_flatMap.mp hv
        cases event with
        | brought src dest access =>
            rw [List.mem_singleton.mp hv]
            exact Option.some_ne_none _
        | _ => cases hv
  | side a =>
      simp only [exec] at h
      split at h
      · next haside =>
          obtain ⟨⟨sim, e'⟩, hsim, heq⟩ := Option.map_eq_some_iff.mp h
          cases heq
          cases a with
          | load | store => cases ha
          | deliver | answer | icntCycle => cases haside
          | _ =>
              cases hsim
              intro v hv
              cases hv
      · cases h

end MemorySystem

/-- How far a place is on the way of a request. -/
def Place.rank : Place → Nat
  | requestQueue _ => 0
  | toMemory _ => 1
  | icntOutput _ => 2
  | command _ => 3
  | hold _ | aauBypass _ | ssrcBypass _ => 4
  | dram _ => 5
  | toCore _ => 6
  | coreOutput _ => 7

theorem Place.rank_lt (p : Place) : p.rank < 8 := by
  cases p <;> simp [rank]

theorem Place.rank_lt_of_leads {p q : Place} (h : p.Leads q = true) : p.rank < q.rank := by
  cases p <;> cases q <;> first | exact Bool.noConfusion h | simp [rank]

/-- **A request goes at most nine steps.** -/
theorem Simulator.Account.length_le {s : Simulator} {h : List Transfer} (ha : Account s h) :
    h.length ≤ 9 * (made h).length := by
  have hle := ha.flow.length_le ha.distinct Place.rank_lt (by
    intro w hw p q hsrc hdst
    obtain ⟨v, hv, rfl⟩ := List.mem_map.mp hw
    exact Place.rank_lt_of_leads ((ha.routes v hv).between p q hsrc hdst))
  have hlen : (moves h).length = h.length := List.length_map _
  rwa [hlen] at hle

/-- A node with nothing to issue has no command and no packet. -/
theorem Simulator.incoming_none {s : Simulator} {full : MemoryAccess → Bool} {m : Nat}
    (h : s.incoming full m = none)
    (hpim : (s.channels m).pimCmdOooQueue ≠ [] → s.isPimChannel m = true) :
    (s.channels m).pimCmdOooQueue = [] ∧ (s.channels m).icntOutput = [] := by
  by_cases hq : (s.channels m).pimCmdOooQueue = []
  · refine ⟨hq, ?_⟩
    unfold incoming at h
    simpa [hq] using h
  · have hlt : s.selectPimCommand full m < (s.channels m).pimCmdOooQueue.length := by
      cases hsched : s.config.enablePimCmdSched with
      | true => exact (selectPimCommand_selected full hsched hq).valid
      | false =>
          have hzero : s.selectPimCommand full m = 0 := by
            unfold selectPimCommand
            simp [hsched]
          rw [hzero]
          exact List.length_pos_iff.mpr hq
    rw [incoming_selected full (hpim hq) hq, List.getElem?_eq_getElem hlt] at h
    cases h

/-! ## 6. Infinite runs -/

/-- No new requests, and every clock ticks again and again. -/
structure Draining {t : MemorySystem} (r : InfiniteRun MemorySystem.machine t) : Prop where
  quiet : ∀ n, (r.act n).requests = false
  coreCycles : r.Often fun a => a = .side .coreCycle
  dramCycles : r.Often fun a => a = .dramCycle
  icntCycles : r.Often fun a => a = .icntCycle

namespace MemorySystem

/-- A step of an infinite run is an act. -/
theorem exec_at {t : MemorySystem} (r : InfiniteRun machine t) (n : ℕ) :
    (r.state n).exec (r.act n) = some (r.state (n + 1), r.shown n) := by
  obtain ⟨⟨t', e⟩, he, heq⟩ := Option.map_eq_some_iff.mp (r.step n)
  cases heq
  simp [he, InfiniteRun.shown, machine]

/-- From `N` on the run makes no transfer. -/
structure Silent {t : MemorySystem} (r : InfiniteRun machine t) (N : ℕ) : Prop where
  draining : Draining r
  reached : ∀ n, ∃ h, (r.state n).Reached h
  shown : ∀ n, N ≤ n → r.shown n = []

namespace Silent

variable {t : MemorySystem} {r : InfiniteRun machine t} {N : ℕ} (hs : Silent r N)
include hs

/-- It is silent from every later time on, too. -/
theorem later {n : ℕ} (hn : N ≤ n) : Silent r n :=
  ⟨hs.draining, hs.reached, fun m hm => hs.shown m (hn.trans hm)⟩

theorem still_step {n : ℕ} (hn : N ≤ n) : Still (r.state n) (r.state (n + 1)) := by
  obtain ⟨h, hreached⟩ := hs.reached n
  have hexec := exec_at r n
  rw [hs.shown n hn] at hexec
  exact exec_still hreached.sound (hs.draining.quiet n) hexec

theorem still {n : ℕ} (hn : N ≤ n) : Still (r.state N) (r.state n) := by
  induction n, hn using Nat.le_induction with
  | base => exact .refl _
  | succ n hn ih => exact ih.trans (hs.still_step hn)

/-- What a cycle at a later time finds. -/
theorem cycle_at {n : ℕ} (hn : N ≤ n) (hact : r.act n = .icntCycle) :
    (∀ o ∈ (r.state n).sim.ops, (r.state n).Idle o) ∧ (∀ src, (r.state n).icnt.wants src = none) ∧
      (r.state (n + 1)).icnt.cycles = (r.state n).icnt.cycles + 1 := by
  obtain ⟨h, hreached⟩ := hs.reached n
  have hexec := exec_at r n
  rw [hs.shown n hn, hact] at hexec
  have hcycle : (r.state n).icntCycle = (r.state (n + 1), []) := Option.some.inj hexec
  obtain ⟨hidle, hwants, -, hclock⟩ :=
    icntCycle_silent hreached.sound (congrArg Prod.snd hcycle)
  rw [hcycle] at hclock
  exact ⟨hidle, hwants, hclock⟩

/-- Some later cycle finds a reason for every part. -/
theorem idle {o : Op} (ho : o ∈ (r.state N).sim.ops) :
    ∃ n, N ≤ n ∧ (r.state n).Idle o := by
  obtain ⟨n, hn, hact⟩ := hs.draining.icntCycles N
  refine ⟨n, hn, (hs.cycle_at hn hact).1 o ?_⟩
  have hst := hs.still hn
  have hops : (r.state n).sim.ops = (r.state N).sim.ops := by
    unfold ops nMemories
    rw [hst.nCores, hst.config]
  rwa [hops]

/-- The clock of the cores goes on. -/
theorem coreCycles_reach (bound : ℕ) :
    ∃ n, N ≤ n ∧ r.act n = .icntCycle ∧ bound ≤ (r.state n).sim.coreCycles := by
  refine r.clock_reaches (fun t => t.sim.coreCycles)
    (fun n hn => (hs.still_step hn).coreCycles) (fun n _ hact => ?_) hs.draining.coreCycles
    hs.draining.icntCycles bound
  have hexec := exec_at r n
  rw [hact] at hexec
  have hnext : { r.state n with
      sim := { (r.state n).sim with coreCycles := (r.state n).sim.coreCycles + 1 } } =
        r.state (n + 1) := congrArg Prod.fst (Option.some.inj hexec)
  rw [← hnext]
  exact Nat.lt_succ_self _

/-- The clock of the interconnect goes on. -/
theorem icntCycles_reach (bound : ℕ) :
    ∃ n, N ≤ n ∧ r.act n = .icntCycle ∧ bound ≤ (r.state n).icnt.cycles := by
  refine r.clock_reaches (fun t => t.icnt.cycles)
    (fun n hn => (hs.still_step hn).icntCycles) (fun n hn hact => ?_) hs.draining.icntCycles
    hs.draining.icntCycles bound
  rw [(hs.cycle_at hn hact).2.2]
  exact Nat.lt_succ_self _

/-- The clock of the DRAM goes on. -/
theorem dramCycles_reach (bound : ℕ) :
    ∃ n, N ≤ n ∧ r.act n = .dramCycle ∧ bound ≤ (r.state n).dram.cycles := by
  refine r.clock_reaches (fun t => t.dram.cycles)
    (fun n hn => (hs.still_step hn).dramCycles) (fun n _ hact => ?_) hs.draining.dramCycles
    hs.draining.dramCycles bound
  have hexec := exec_at r n
  rw [hact] at hexec
  have hnext : (r.state n).dramCycle = r.state (n + 1) :=
    congrArg Prod.fst (Option.some.inj hexec)
  rw [← hnext, (dramCycle_still _).2]
  exact Nat.lt_succ_self _

theorem channel_idle {m : Nat} (hm : m < (r.state N).sim.nMemories) {o : Op}
    (ho : o ∈ channelOps m) : ∃ n, N ≤ n ∧ (r.state n).Idle o :=
  hs.idle (List.mem_append_right _ (List.mem_flatMap.mpr ⟨m, List.mem_range.mpr hm, ho⟩))

theorem requestQueue_nil (c : Nat) : ((r.state N).sim.cores c).requestQueue = [] := by
  by_cases hc : c < (r.state N).sim.nCores
  · obtain ⟨n, hn, hidle⟩ := hs.idle (o := .coreRequest c) (List.mem_append_left _
      (List.mem_flatMap.mpr ⟨c, List.mem_range.mpr hc, by simp [coreOps]⟩))
    rw [← (hs.still hn).requestQueue c]
    exact hidle
  · obtain ⟨h, hreached⟩ := hs.reached N
    refine List.eq_nil_iff_forall_not_mem.mpr fun access hmem => hc ?_
    obtain ⟨hlt, heq, -⟩ := hreached.account.shape (.requestQueue c) access hmem
    exact heq ▸ hlt

theorem coreOutput_nil {c : Nat} (hc : c < (r.state N).sim.nCores) :
    (r.state N).icnt.outBuffers c = [] := by
  obtain ⟨n, hn, hidle⟩ := hs.idle (o := .coreResponse c) (List.mem_append_left _
    (List.mem_flatMap.mpr ⟨c, List.mem_range.mpr hc, by simp [coreOps]⟩))
  rw [← (hs.still hn).outBuffers]
  exact hidle

/-- Nothing waits to be issued. -/
theorem incoming_nil {m : Nat} (hm : m < (r.state N).sim.nMemories) :
    ((r.state N).sim.channels m).pimCmdOooQueue = [] ∧
      (r.state N).icnt.outBuffers ((r.state N).memNode m) = [] := by
  obtain ⟨n, hn, hidle⟩ := hs.channel_idle hm (o := .issue m) (by simp [channelOps])
  obtain ⟨h, hreached⟩ := hs.reached n
  have hst := hs.still hn
  obtain ⟨hcommand, hicnt⟩ := incoming_none hidle fun hne => by
    obtain ⟨m', hm', hpim⟩ := hreached.overlay (.command m) rfl hne
    cases hm'
    exact hpim
  refine ⟨?_, ?_⟩
  · rw [← hst.channels]
    exact hcommand
  · have hnode : (r.state N).memNode m = (r.state n).memNode m := by
      unfold memNode
      rw [hst.nCores]
    rw [hnode, ← hst.outBuffers]
    exact hicnt

/-- Nothing waits in a queue whose front comes out when it is due. -/
theorem overlay_nil {m : Nat} (hm : m < (r.state N).sim.nMemories)
    {queue : Channel → List (Nat × MemoryAccess)} {o : Op} (ho : o ∈ channelOps m)
    (hidle : ∀ t : MemorySystem, t.Idle o → t.NotDue (queue (t.sim.channels m)))
    (hactive : ∀ (t : MemorySystem) (h : List Transfer), t.Reached h →
      queue (t.sim.channels m) ≠ [] → t.sim.pim.active = true) :
    queue ((r.state N).sim.channels m) = [] := by
  by_contra hne
  obtain ⟨e, rest, hq⟩ := List.exists_cons_of_ne_nil hne
  obtain ⟨n, hn, hact, hle⟩ := hs.coreCycles_reach e.1
  obtain ⟨h, hreached⟩ := hs.reached n
  have hst := hs.still hn
  have hops : o ∈ (r.state n).sim.ops := by
    refine List.mem_append_right _ (List.mem_flatMap.mpr ⟨m, List.mem_range.mpr ?_, ho⟩)
    unfold nMemories
    rw [hst.config]
    exact hm
  have hq' : queue ((r.state n).sim.channels m) = e :: rest := by rw [hst.channels, hq]
  have hdue := hidle _ ((hs.cycle_at hn hact).1 o hops)
  rw [hq'] at hdue
  refine hdue e rfl ⟨hactive _ h hreached ?_, hle⟩
  rw [hq']
  exact List.cons_ne_nil e rest

/-- Nothing is on its way. -/
theorem inBuffers_nil (src : Nat) : (r.state N).icnt.inBuffers src = [] := by
  by_contra hne
  obtain ⟨front, rest, hq⟩ := List.exists_cons_of_ne_nil hne
  obtain ⟨n, hn, hact, hle⟩ := hs.icntCycles_reach front.finishCycle
  have hwants := (hs.cycle_at hn hact).2.1 src
  unfold SimpleInterconnect.wants at hwants
  rw [(hs.still hn).inBuffers, hq] at hwants
  dsimp only at hwants
  rw [if_pos hle] at hwants
  cases hwants

theorem responses_nil {m : Nat} (hm : m < (r.state N).sim.nMemories) :
    (r.state N).dram.responseQueue m = [] := by
  obtain ⟨n, hn, hidle⟩ := hs.channel_idle hm (o := .dramResponse m) (by simp [channelOps])
  obtain ⟨answered, ha⟩ := (hs.still hn).responses m
  have hnil : (r.state n).dram.responseQueue m = [] := hidle
  rw [ha] at hnil
  exact (List.append_eq_nil_iff.mp hnil).1

/-- The DRAM has answered everything: what it answers later would come out. -/
theorem waiting_nil {m : Nat} (hm : m < (r.state N).sim.nMemories) :
    (r.state N).dram.waitingQueue m = [] := by
  by_contra hne
  obtain ⟨e, rest, hq⟩ := List.exists_cons_of_ne_nil hne
  obtain ⟨n, hn, hact, hle⟩ := hs.dramCycles_reach e.1
  obtain ⟨h, hreached⟩ := hs.reached n
  have hst := hs.still hn
  have hlater : ∀ k, N ≤ k → (r.state k).dram.responseQueue m = [] := by
    intro k hk
    refine (hs.later hk).responses_nil ?_
    unfold nMemories
    rw [(hs.still hk).config]
    exact hm
  have hsame : (r.state n).dram.waitingQueue m = e :: rest := by
    rw [hst.waiting m (by rw [hlater n hn, hlater N (Nat.le_refl N)]), hq]
  have hexec := exec_at r n
  rw [hact] at hexec
  have hnext : (r.state n).dramCycle = r.state (n + 1) :=
    congrArg Prod.fst (Option.some.inj hexec)
  refine ((r.state n).dramCycle_silent m).2.2 e (by rw [hsame]; rfl) ?_ hle ?_
  · rw [hreached.wired.nCh]
    unfold nMemories
    rw [hst.config]
    exact hm
  · rw [hnext]
    exact hlater (n + 1) (Nat.le_succ_of_le hn)

/-- **A silent run has nothing anywhere.** -/
theorem contents_nil (p : Place) : (r.state N).view.contents p = [] := by
  obtain ⟨h, hreached⟩ := hs.reached N
  have hflight : ∀ node, (r.state N).icnt.inFlight node = [] := by
    intro node
    refine List.flatMap_eq_nil_iff.mpr fun src _ => ?_
    rw [hs.inBuffers_nil src]
    rfl
  have hactive : ∀ {p : Place}, p.overlay = true → ∀ (t : MemorySystem) (h : List Transfer),
      t.Reached h → t.view.contents p ≠ [] → t.sim.pim.active = true := by
    intro p hp t h hr hne
    obtain ⟨m, -, hpim⟩ := hr.overlay p hp hne
    exact isPimChannel_active hpim
  -- a place of a node beyond the channels, or of a channel
  have hchannel : ∀ {p : Place} {m : Nat}, p.memId = some m →
      (m < (r.state N).sim.nMemories → (r.state N).view.contents p = []) →
      (r.state N).view.contents p = [] := by
    intro p m hp hlt
    by_cases hm : m < (r.state N).sim.nMemories
    · exact hlt hm
    · rw [contents_channel hp, hreached.beyond m (Nat.not_lt.mp hm)]
      cases p <;> rfl
  cases p with
  | requestQueue c => exact hs.requestQueue_nil c
  | toMemory m => exact hflight _
  | toCore c =>
      show (if c < (r.state N).sim.nCores then (r.state N).icnt.inFlight c else []) = []
      rw [hflight, ite_self]
  | coreOutput c =>
      show (if c < (r.state N).sim.nCores then (r.state N).icnt.outBuffers c else []) = []
      split
      · next hc => exact hs.coreOutput_nil hc
      · rfl
  | icntOutput m => exact hchannel rfl fun hm => (hs.incoming_nil hm).2
  | command m => exact hchannel rfl fun hm => (hs.incoming_nil hm).1
  | hold m =>
      refine hchannel rfl fun hm => List.map_eq_nil_iff.mpr ?_
      exact hs.overlay_nil hm (o := .drainHold m) (by simp [channelOps]) (fun _ h => h)
        fun t h hr hne => hactive (p := .hold m) rfl t h hr fun hnil =>
          hne (List.map_eq_nil_iff.mp hnil)
  | aauBypass m =>
      refine hchannel rfl fun hm => List.map_eq_nil_iff.mpr ?_
      exact hs.overlay_nil hm (o := .drainBypass m) (by simp [channelOps]) (fun _ h => h)
        fun t h hr hne => hactive (p := .aauBypass m) rfl t h hr fun hnil =>
          hne (List.map_eq_nil_iff.mp hnil)
  | ssrcBypass m =>
      refine hchannel rfl fun hm => List.map_eq_nil_iff.mpr ?_
      exact hs.overlay_nil hm (o := .drainSsrcBypass m) (by simp [channelOps]) (fun _ h => h)
        fun t h hr hne => hactive (p := .ssrcBypass m) rfl t h hr fun hnil =>
          hne (List.map_eq_nil_iff.mp hnil)
  | dram m =>
      refine hchannel rfl fun hm => ?_
      show ((r.state N).dram.waitingQueue m).map Prod.snd ++ (r.state N).dram.responseQueue m = []
      rw [hs.waiting_nil hm, hs.responses_nil hm]
      rfl

end Silent

end MemorySystem

/-! ## 7. Every request comes back -/

namespace MemorySystemSetup

/-- Acts that make no request make none. -/
theorem made_exec {t t' : MemorySystem} {a : SystemAct} {h e : List Transfer}
    (ha : a.requests = false) (hx : t.exec a = some (t', e)) : made (h ++ e) = made h := by
  have hsrc := MemorySystem.exec_src ha hx
  unfold made TokenFlow.enteringTokens
  rw [moves_append, List.filter_append, List.map_append]
  refine List.append_right_eq_self.mpr (List.map_eq_nil_iff.mpr (List.filter_eq_nil_iff.mpr ?_))
  intro w hw
  obtain ⟨v, hv, rfl⟩ := List.mem_map.mp hw
  obtain ⟨p, hp⟩ := Option.ne_none_iff_exists'.mp (hsrc v hv)
  simp [TokenFlow.Move.entering, Transfer.move, TokenFlow.inside, hp, TokenFlow.anywhere]

section Runs

variable (c : MemorySystemSetup) {as : List SystemAct} {t : MemorySystem} {h : List Transfer}
  (hr : c.run as = some (t, h)) (r : InfiniteRun MemorySystem.machine t)
include hr

/-- The run up to a time. -/
theorem run_upto (n : ℕ) : ∃ bs, c.run bs = some (r.state n, h ++ r.history n) :=
  run_of_exec ((exec_of_run hr).trans (r.exec n))

omit hr in
theorem made_upto (hd : Draining r) (n : ℕ) : made (h ++ r.history n) = made h := by
  induction n with
  | zero => rw [InfiniteRun.history, List.append_nil]
  | succ n ih =>
      rw [InfiniteRun.history, ← List.append_assoc,
        made_exec (hd.quiet n) (MemorySystem.exec_at r n), ih]

theorem exists_silent (hd : Draining r) : ∃ N, MemorySystem.Silent r N := by
  have hreached : ∀ n, (r.state n).Reached (h ++ r.history n) := fun n =>
    have ⟨_, hbs⟩ := c.run_upto hr r n
    c.reached hbs
  have hbound : ∀ n, (r.history n).length ≤ 9 * (made h).length := by
    intro n
    have hle := (hreached n).account.length_le
    rw [made_upto r hd n, List.length_append] at hle
    omega
  obtain ⟨N, hN⟩ := r.silent_after hbound
  exact ⟨N, hd, fun n => ⟨_, hreached n⟩, hN⟩

/-- **The memory side drains**: once no new requests are made, and while every clock ticks again and
    again, there is a time from which on nothing is anywhere, every request that was made has come
    back to its core exactly once, and no core waits for a write. -/
theorem drains (hd : Draining r) : ∃ N, ∀ n, N ≤ n →
    (∀ p, (r.state n).view.contents p = []) ∧
      (made h).Perm (requestsOf Transfer.returns (h ++ r.history n)) ∧
      ∀ coreId, ((r.state n).sim.cores coreId).waitingWriteReqs = 0 := by
  obtain ⟨N, hs⟩ := c.exists_silent hr r hd
  refine ⟨N, fun n hn => ?_⟩
  have hnil := (hs.later hn).contents_nil
  obtain ⟨bs, hbs⟩ := c.run_upto hr r n
  have ha := (c.reached hbs).account
  have hperm : (made h).Perm (answered (h ++ r.history n)) := by
    have hcross := ha.flow.crossings_perm ha.distinct (B := TokenFlow.anywhere) fun p _ access => by
      unfold marking
      rw [hnil p]
      rfl
    rwa [← made_upto r hd n]
  refine ⟨hnil, ?_, fun coreId => ?_⟩
  · rw [ha.returned closed_anywhere]
    exact hperm
  · have hbooks := ha.waiting coreId
    rw [made_upto r hd n, hperm.countP_eq] at hbooks
    exact Nat.add_eq_right.mp hbooks

end Runs

/-- The clocks in turn. -/
def clocks (n : ℕ) : SystemAct :=
  if n % 3 = 0 then .side .coreCycle else if n % 3 = 1 then .dramCycle else .icntCycle

theorem clocks_cases (n : ℕ) :
    clocks n = .side .coreCycle ∨ clocks n = .dramCycle ∨ clocks n = .icntCycle := by
  unfold clocks
  split
  · exact .inl rfl
  · split
    · exact .inr (.inl rfl)
    · exact .inr (.inr rfl)

/-- The run of the clocks from a state. -/
def clockRun (t : MemorySystem) : InfiniteRun MemorySystem.machine t :=
  .along MemorySystem.machine t clocks fun n s => by
    rcases clocks_cases n with h | h | h <;> rw [h] <;> rfl

theorem clockRun_draining (t : MemorySystem) : Draining (clockRun t) where
  quiet n := by
    show (clocks n).requests = false
    rcases clocks_cases n with h | h | h <;> rw [h] <;> rfl
  coreCycles n := ⟨3 * n, by omega, if_pos (by omega)⟩
  dramCycles n := ⟨3 * n + 1, by omega, (if_neg (by omega)).trans (if_pos (by omega))⟩
  icntCycles n := ⟨3 * n + 2, by omega, (if_neg (by omega)).trans (if_neg (by omega))⟩

/-- Two writes on their way, one of them parked. -/
theorem drains_sample : ∃ t h, sample.run (sampleActs.take 6) = some (t, h) ∧
    t.view.contents (.hold 0) ≠ [] ∧ ∃ N, ∀ n, N ≤ n → (∀ p, ((clockRun t).state n).view.contents p = []) ∧
      (made h).Perm (requestsOf Transfer.returns (h ++ (clockRun t).history n)) ∧
      ∀ coreId, (((clockRun t).state n).sim.cores coreId).waitingWriteReqs = 0 := by
  obtain ⟨⟨t, h⟩, hrun, hhold⟩ := (Option.any_eq_true _ _).mp (show
    (sample.run (sampleActs.take 6)).any (fun r => !(r.1.view.contents (.hold 0)).isEmpty) = true by
      decide +kernel)
  exact ⟨t, h, hrun, by simpa using hhold, drains sample hrun (clockRun t) (clockRun_draining t)⟩

end MemorySystemSetup

end Ahasd
