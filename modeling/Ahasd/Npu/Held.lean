/-
  File:      Ahasd/Npu/Held.lean
  Subject:   A RUN STOPS ONLY WHERE A CORE STOPS, at an assertion or with `exit`.

  The tiles that a core has are those that run on it for the scheduler, so a finished tile can always
  be given back; the memory side takes every request of a core, and has the slot of every load that
  it answers.

  * `held`: the tiles of a core; `held_cycle`, `held_issue`, `held_popFinishedTile`: only what a core
    gets and gives back changes them;
  * `running_of_exec`, `running_of_finish`: so it is with the tiles that run for the scheduler;
  * `Setup.held`: in every run they are the same;
  * **`Setup.stops`**: where a run stops.
-/
import Ahasd.Npu.Runs

namespace Ahasd.Npu

open Transition

/-! ## 1. The tiles of a core -/

namespace SystolicCore

/-- The tiles that a core has. -/
def held (c : SystolicCore) : List Tile := c.tiles.map RunningTile.tile ++ c.finishedTiles

variable {c c' : SystolicCore} {slot : SpadSlot} {tile : Tile}

theorem Put.held {e : SramEntry} (hput : Put slot e c c') : c'.held = c.held := by
  obtain ⟨_, _, rfl⟩ := hput.rest
  rfl

theorem held_fill (hfill : c.fill slot = some c') : c'.held = c.held := by
  obtain ⟨_, _, _, hput⟩ := put_of_fill hfill
  exact hput.held

theorem held_setInstFinished (myTile : Option Nat) (c : SystolicCore) :
    (setInstFinished myTile c).held = c.held := by
  unfold held setInstFinished
  rw [List.map_map]
  refine congrArg (· ++ c.finishedTiles) (List.map_congr_left fun t _ => ?_)
  simp only [Function.comp_apply]
  split <;> rfl

theorem held_finish (hc : Finishes c c') : c'.held = c.held := by
  cases hc with
  | nothing => rfl
  | done front compute vector d hfill hpipes =>
      have hheld := held_fill hfill
      exact (held_setInstFinished _ _).trans hheld

theorem held_handleLdInstQueue {dramReqSize : Nat} {new : List (SpadSlot × MemoryAccess)}
    (hc : c.handleLdInstQueue dramReqSize = some (c', new)) : c'.held = c.held := by
  unfold handleLdInstQueue at hc
  split at hc
  · cases hc
    rfl
  · obtain ⟨d, hd, heq⟩ := Option.map_eq_some_iff.mp hc
    cases heq
    exact (put_of_prefetch hd).2.held

theorem held_execute (hc : c.execute = some c') : c'.held = c.held := by
  unfold execute at hc
  split at hc
  · cases hc
    rfl
  · split at hc
    · obtain ⟨d, hd, rfl⟩ := Option.map_eq_some_iff.mp hc
      obtain ⟨_, hput⟩ := put_of_allocate hd
      split <;> exact hput.held
    · cases hc
      rfl

theorem held_handleStInstQueue {dramReqSize : Nat} {stores : List MemoryAccess}
    (hc : c.handleStInstQueue dramReqSize = some (c', stores)) : c'.held = c.held := by
  unfold handleStInstQueue at hc
  split at hc
  · cases hc
    rfl
  · cases hc
  · split at hc
    · cases hc
      exact held_setInstFinished _ _
    · cases hc
      rfl

theorem held_enqueued (i : Nat) (c : SystolicCore) : (c.enqueued i).held = c.held := by
  have htiles : (c.enqueued i).tiles.map RunningTile.tile = c.tiles.map RunningTile.tile := by
    refine List.ext_getElem? fun j => ?_
    unfold enqueued
    rw [List.getElem?_map, List.getElem?_modify, List.getElem?_map]
    cases c.tiles[j]? with
    | none => rfl
    | some t =>
        rw [Option.map_eq_map, Option.map_some, Option.map_some, Option.map_some]
        split <;> rfl
  unfold held
  rw [htiles]
  rfl

theorem held_issueInst (hc : c.issueInst = some c') : c'.held = c.held := by
  cases issues_issueLoop _ hc with
  | nothing => rfl
  | load | reader => exact held_enqueued _ _

theorem held_finishTile (c : SystolicCore) : c.finishTile.held.Perm c.held := by
  unfold finishTile
  split
  · exact .refl _
  · next t ht =>
      have hperm := (List.perm_cons_erase (List.mem_of_find?_eq_some ht)).map RunningTile.tile
      unfold held
      dsimp only
      rw [← List.append_assoc]
      refine (List.perm_append_singleton _ _).trans ?_
      exact (hperm.append_right c.finishedTiles).symm

/-- **A cycle changes nothing about the tiles of a core**, but which are finished. -/
theorem held_cycle {dramReqSize : Nat} {clock : Clock} {new : List (SpadSlot × MemoryAccess)}
    {stores : List MemoryAccess} (hc : c.cycle dramReqSize clock = some (c', new, stores)) :
    c'.held.Perm c.held := by
  obtain ⟨c₁, c₂, c₃, c₄, c₅, c₆, h₁, h₂, h₃, h₄, h₅, h₆, rfl⟩ := cycle_parts hc
  have hissue : c₆.held = c.held := calc
    c₆.held = c₅.held := held_issueInst h₆
    _ = c₄.held := held_handleStInstQueue h₅
    _ = c₃.held := held_execute h₄
    _ = c₂.held := held_handleLdInstQueue h₃
    _ = c₁.held := held_finish (finishes_vector h₂)
    _ = c.held := held_finish (finishes_compute h₁)
  exact hissue ▸ held_finishTile c₆

theorem held_issue (tile : Tile) (c : SystolicCore) :
    (c.issue tile).held.Perm (c.held ++ [tile]) := by
  unfold issue held
  dsimp only
  split
  · rw [List.append_assoc]
  · dsimp only
    rw [List.map_append, List.append_assoc, List.append_assoc]
    exact List.perm_append_comm.append_left _

theorem held_popFinishedTile (hpop : c.popFinishedTile = some (tile, c')) :
    c.held.Perm (tile :: c'.held) := by
  unfold popFinishedTile at hpop
  split at hpop
  · cases hpop
  · next first rest hfinished =>
      cases hpop
      unfold held
      rw [hfinished]
      exact List.perm_middle

end SystolicCore

/-! ## 2. The tiles that run for the scheduler -/

section Scheduler

variable {setup : TileSetup} {t t' : TileSystem TileWork} {h e : List (TileEvent TileWork)}

theorem launchedOn_eq_nil {core : Nat} (hnone : ∀ tile, .launched core tile ∉ e) :
    launchedOn core e = [] := by
  refine List.filterMap_eq_nil_iff.mpr fun v hv => ?_
  cases v with
  | launched c tile =>
      refine if_neg ?_
      rintro rfl
      exact hnone tile hv
  | _ => rfl

theorem finishedOn_eq_nil {core : Nat} (hnone : ∀ tile, .finished core tile ∉ e) :
    finishedOn core e = [] := by
  refine List.filterMap_eq_nil_iff.mpr fun v hv => ?_
  cases v with
  | finished c tile =>
      refine if_neg ?_
      rintro rfl
      exact hnone tile hv
  | _ => rfl

/-- What is launched starts to run, what is finished runs no longer. -/
theorem running_of_exec (hi : TileSystem.Inv setup t h) {a : TileAct TileWork}
    (he : t.exec a = some (t', e)) (core : Nat) :
    (t.running core ++ launchedOn core e).Perm (finishedOn core e ++ t'.running core) := by
  have hbefore := (hi.kept.cores core).append_right (launchedOn core e)
  have hafter := (hi.exec he).kept.cores core
  rw [launchedOn_append, finishedOn_append, List.append_assoc] at hafter
  rw [List.append_assoc] at hbefore
  exact (List.perm_append_left_iff _).mp (hbefore.symm.trans hafter)

/-- The tiles that run, after a tile was given back. -/
theorem running_of_finish (hi : TileSystem.Inv setup t h) {core index : Nat} {tile : Tile}
    (hrun : (t.running core)[index]? = some tile)
    (he : t.exec (.finish core index) = some (t', e)) :
    (t.running core).Perm (tile :: t'.running core) ∧
      ∀ other ≠ core, (t.running other).Perm (t'.running other) := by
  have hshown : ∃ rest, e = .finished core tile :: rest ∧ ∀ v ∈ rest, ofStatus v = true := by
    cases hi.tended.of_finish he with
    | last first stat hfirst hstat hpos hlast r hr =>
        cases hrun.symm.trans hfirst
        exact ⟨_, rfl, finishLayer_shows hr⟩
    | more first stat hfirst hstat hpos hmore =>
        cases hrun.symm.trans hfirst
        exact ⟨_, rfl, refreshStatus_shows _⟩
  obtain ⟨rest, heq, hrest⟩ := hshown
  have hlaunched : ∀ other, launchedOn other e = [] := by
    refine fun other => launchedOn_eq_nil fun tile hl => ?_
    rw [heq] at hl
    rcases List.mem_cons.mp hl with hl | hl
    · cases hl
    · cases hrest _ hl
  have hnone : ∀ other, finishedOn other rest = [] := by
    refine fun other => finishedOn_eq_nil fun tile hf => ?_
    cases hrest _ hf
  have hfinished : ∀ other, finishedOn other e = if core = other then [tile] else [] := by
    intro other
    have hcons : finishedOn other e =
        finishedOn other [.finished core tile] ++ finishedOn other rest := by
      rw [heq]
      exact finishedOn_append [.finished core tile] rest other
    rw [hcons, hnone, List.append_nil]
    unfold finishedOn
    split <;> simp_all
  refine ⟨?_, fun other hother => ?_⟩
  · have hperm := running_of_exec hi he core
    rwa [hlaunched, hfinished, if_pos rfl, List.append_nil] at hperm
  · have hperm := running_of_exec hi he other
    rwa [hlaunched, hfinished, if_neg hother.symm, List.append_nil] at hperm

end Scheduler

/-! ## 3. They are the same -/

/-- The cores have the tiles that run on them for the scheduler. -/
def Held (s : System) : Prop :=
  ∀ coreId, (s.tiles.running coreId).Perm (s.cores coreId).held

variable {c : Setup} {s s' : System} {h e : List Event} {bp : BackPressure}

theorem held_op {o : Op} {vs : List Transfer} (hr : s.op bp o = some (s', vs)) (coreId : Nat) :
    (s'.cores coreId).held = (s.cores coreId).held := by
  cases o with
  | coreResponse c =>
      have hr : s.coreResponse c = some (s', vs) := hr
      unfold System.coreResponse at hr
      dsimp only at hr
      split at hr
      · cases hr
        rfl
      · split at hr
        · cases hr
          rfl
        · split at hr
          · cases hr
          · obtain ⟨core, hfill, heq⟩ := Option.map_eq_some_iff.mp hr
            cases heq
            show (Function.update s.cores c core coreId).held = _
            by_cases hc : coreId = c
            · rw [hc, Function.update_self]
              exact SystolicCore.held_fill hfill
            · rw [Function.update_of_ne hc]
  | _ =>
      cases hr
      rfl

theorem held_runOps {os : List Op} {vs : List Transfer} (hr : s.runOps bp os = some (s', vs)) :
    ∀ coreId, (s'.cores coreId).held = (s.cores coreId).held := by
  induction os generalizing s vs with
  | nil =>
      cases hr
      exact fun _ => rfl
  | cons o os ih =>
      unfold System.runOps at hr
      split at hr
      · cases hr
      · next t k hop =>
          obtain ⟨⟨u, l⟩, hrest, heq⟩ := Option.map_eq_some_iff.mp hr
          cases heq
          exact fun coreId => (ih hrest coreId).trans (held_op hop coreId)

/-- The scheduler does something, and no core gets or gives back a tile. -/
theorem Held.still (hheld : Held s) (hb : Books c s h) {a : TileAct TileWork}
    {t : TileSystem TileWork} {es : List (TileEvent TileWork)}
    (he : s.tiles.exec a = some (t, es)) (hlaunched : ∀ core tile, .launched core tile ∉ es)
    (hfinish : ∀ core index, a ≠ .finish core index) : Held { s with tiles := t } := by
  intro coreId
  have hperm := running_of_exec hb.tiles he coreId
  rw [launchedOn_eq_nil (hlaunched coreId), List.append_nil, finishedOn_eq_nil] at hperm
  · exact hperm.symm.trans (hheld coreId)
  · intro tile hf
    obtain ⟨index, heq⟩ := finishes_of_exec hb.tiles he hf
    exact hfinish coreId index heq

/-- A finished tile is one that runs. -/
theorem Held.running (hheld : Held s) {coreId : Nat} {tile : Tile} {core : SystolicCore}
    (hpop : (s.cores coreId).popFinishedTile = some (tile, core)) :
    (s.tiles.running coreId)[(s.tiles.running coreId).idxOf tile]? = some tile := by
  refine List.getElem?_idxOf ((hheld coreId).mem_iff.mpr ?_)
  exact (SystolicCore.held_popFinishedTile hpop).mem_iff.mpr List.mem_cons_self

/-- A core is replaced by one with the tiles that run on it. -/
theorem Held.update (hheld : Held s) {coreId : Nat} {core : SystolicCore}
    (hcores : s'.cores = Function.update s.cores coreId core)
    (hcore : (s'.tiles.running coreId).Perm core.held)
    (hother : ∀ other ≠ coreId, (s.tiles.running other).Perm (s'.tiles.running other)) :
    Held s' := by
  intro other
  rw [hcores]
  by_cases hc : other = coreId
  · rw [hc, Function.update_self]
    exact hcore
  · rw [Function.update_of_ne hc]
    exact (hother other hc).symm.trans (hheld other)

/-- **A step keeps it.** -/
theorem Held.step (hheld : Held s) (hb : Books c s h) (hs : s.Steps s' e) : Held s' := by
  cases hs with
  | nothing => exact hheld
  | scheduled model next t es he =>
      refine hheld.still hb he (fun core tile hl => ?_) fun core index heq => by cases heq
      cases (launches_of_exec hb.tiles he hl).1
  | finished coreId tile core t es hpop he =>
      obtain ⟨hrun, hother⟩ := running_of_finish hb.tiles (hheld.running hpop) he
      refine hheld.update rfl ?_ hother
      refine List.Perm.cons_inv (a := tile) (hrun.symm.trans ?_)
      exact (hheld coreId).trans (SystolicCore.held_popFinishedTile hpop)
  | asked coreId t es he hnone =>
      refine hheld.still hb he (fun core tile hl => ?_) fun core index heq => by cases heq
      obtain ⟨_, rfl, _⟩ := launches_of_exec hb.tiles he hl
      cases hnone
  | issued coreId tile t es hroom he hsome =>
      obtain ⟨core, hl⟩ := launched_of_launchedTile hsome
      obtain ⟨hcore, rfl, _⟩ := launches_of_exec hb.tiles he hl
      cases hcore
      have hperm := running_of_exec hb.tiles he
      refine hheld.update rfl ?_ fun other hother => ?_
      · have hlaunch : launchedOn coreId [.launched coreId tile] = [tile] := by
          unfold launchedOn
          simp
        have hcoreId := hperm coreId
        rw [hlaunch] at hcoreId
        refine hcoreId.symm.trans (((hheld coreId).append_right [tile]).trans ?_)
        exact (SystolicCore.held_issue tile _).symm
      · have hnone : launchedOn other [.launched coreId tile] = [] :=
          launchedOn_eq_nil fun tile' hl => by
            cases List.mem_singleton.mp hl
            exact hother rfl
        have hcoreId := hperm other
        rwa [hnone, List.append_nil] at hcoreId
  | cycled coreId clock core loads stores m vs hc hm =>
      refine hheld.update rfl ?_ fun _ _ => .refl _
      exact (hheld coreId).trans (SystolicCore.held_cycle hc).symm
  | interconnect bp t vs hr =>
      intro coreId
      rw [held_runOps hr, (System.memory_of_runOps hr).2]
      exact hheld coreId
  | memory a m vs hr _ => exact hheld

/-- **In every run the cores have the tiles that run on them for the scheduler.** -/
theorem Setup.held (hr : Exec System.machine c.start s h) : Held s := by
  have hall : Books c s h ∧ Held s := by
    refine hr.invariant (P := fun s h => Books c s h ∧ Held s)
      ⟨c.start_books, fun _ => .refl _⟩ fun s h a s' hi hs => ?_
    obtain ⟨e, he, hobs⟩ := System.exec_of_step hs
    rw [hobs]
    have hst := System.steps_of_exec he
    exact ⟨hi.1.step hst, hi.2.step hi.1 hst⟩
  exact hall.2

/-! ## 4. Where a run stops -/

/-- A finished tile can be given back. -/
theorem Held.takes_back (hheld : Held s) (hb : Books c s h) (coreId : Nat) :
    (s.popFinished coreId).isSome = true := by
  unfold System.popFinished
  split
  · rfl
  · next tile core hpop =>
      obtain ⟨r, hfinish, _⟩ := hb.tiles.tended.ended (hheld.running hpop)
      rw [Option.isSome_map, TileSystem.exec, hfinish]
      rfl

/-- A core that asks gets an answer. -/
theorem Books.answers (hb : Books c s h) {coreId : Nat} (hcore : coreId < s.tiles.sched.numCores) :
    (s.issue coreId).isSome = true := by
  unfold System.issue
  split
  · obtain ⟨r, hpoll, _⟩ := hb.tiles.tended.asked hcore
    rw [Option.isSome_map, TileSystem.exec, if_pos hcore, hpoll]
    rfl
  · rfl

/-- The memory side takes the requests of a core. -/
theorem takes_requests {coreId : Nat} (loads : List (SpadSlot × MemoryAccess))
    (stores : List MemoryAccess) {m : Simulator} (hcore : coreId < m.nCores) :
    (Simulator.machine.run (System.requestActs coreId loads stores) m).isSome = true := by
  have hrun : ∀ (as : List MemoryAct) (m : Simulator), coreId < m.nCores →
      (∀ a ∈ as, ∃ (access : MemoryAccess) (f : Simulator → Core → Core), ∀ m : Simulator,
        coreId < m.nCores → m.exec a = some (m.request coreId access (f m))) →
      (Simulator.machine.run as m).isSome = true := by
    intro as
    induction as with
    | nil => exact fun _ _ _ => rfl
    | cons a as ih =>
        intro m hcore hacts
        obtain ⟨access, f, hexec⟩ := hacts a List.mem_cons_self
        have hstep : Simulator.machine.step m a = some (m.request coreId access (f m)).1 := by
          show (m.exec a).map Prod.fst = _
          rw [hexec m hcore]
          rfl
        have hrest := ih (m.request coreId access (f m)).1 hcore fun a ha =>
          hacts a (List.mem_cons_of_mem _ ha)
        obtain ⟨r, hr⟩ := Option.isSome_iff_exists.mp hrest
        rw [Machine.run, hstep]
        dsimp only
        rw [hr]
        rfl
  refine hrun _ m hcore fun a ha => ?_
  rcases List.mem_append.mp ha with ha | ha
  · obtain ⟨l, _, rfl⟩ := List.mem_map.mp ha
    exact ⟨{ l.2 with write := false },
      fun m core => { core with loads := core.loads ++ [(l.1, m.memAccessIds)] },
      fun m hcore => by rw [Simulator.exec, if_pos hcore]⟩
  · obtain ⟨access, _, rfl⟩ := List.mem_map.mp ha
    exact ⟨{ access with write := true },
      fun _ core => { core with waitingWriteReqs := core.waitingWriteReqs + 1 },
      fun m hcore => by rw [Simulator.exec, if_pos hcore]⟩

/-- An answer is for a load of its core; so it is the scratchpad that refuses it. -/
theorem refused_of_coreResponse {k : List Transfer} (ha : s.memory.Account k) {coreId : Nat}
    (hnone : s.coreResponse coreId = none) :
    ∃ response ∈ s.memory.coreOutput coreId, ∃ slot,
      (slot, response.id) ∈ (s.memory.cores coreId).loads ∧
        (s.cores coreId).fill slot = none := by
  unfold System.coreResponse at hnone
  dsimp only at hnone
  split at hnone
  · cases hnone
  · next response rest hq =>
      have hmem : response ∈ s.memory.contents (.coreOutput coreId) := by
        show response ∈ s.memory.coreOutput coreId
        rw [hq]
        exact List.mem_cons_self
      have hcore : response.coreId = coreId := (ha.shape _ _ hmem).2
      refine ⟨response, hmem, ?_⟩
      split at hnone
      · cases hnone
      · next hwrite =>
          split at hnone
          · next hfind =>
              obtain ⟨slot, hslot⟩ := (ha.awaited hmem).2 (Bool.eq_false_of_not_eq_true hwrite)
              rw [hcore] at hslot
              have hmiss := List.find?_eq_none.mp hfind _ hslot
              exact absurd (beq_self_eq_true response.id) hmiss
          · next slot id hfind =>
              have hid : id = response.id := by simpa using List.find?_some hfind
              exact ⟨slot, hid ▸ List.mem_of_find?_eq_some hfind, Option.map_eq_none_iff.mp hnone⟩

/-- **A run stops only where a core stops**: a finished tile can be given back, a core that asks gets
    an answer, the memory side takes what a core's cycle requests, and an answer fails only by what
    the scratchpad says to it. -/
theorem Setup.stops (hr : Exec System.machine c.start s h) :
    (∀ coreId, (s.popFinished coreId).isSome = true) ∧
      (∀ coreId < s.tiles.sched.numCores, (s.issue coreId).isSome = true) ∧
      (∀ coreId < s.memory.nCores, ∀ clock, (s.cycle coreId clock).isSome =
        ((s.cores coreId).cycle s.dramReqSize clock).isSome) ∧
      ∀ bp os s' e, s.runOps bp os = some (s', e) → ∀ coreId, s'.coreResponse coreId = none →
        ∃ response ∈ s'.memory.coreOutput coreId, ∃ slot,
          (slot, response.id) ∈ (s'.memory.cores coreId).loads ∧
            (s'.cores coreId).fill slot = none := by
  have hb := c.books hr
  refine ⟨(c.held hr).takes_back hb, fun coreId => hb.answers, fun coreId hcore clock => ?_,
    fun bp os s' e hops coreId => ?_⟩
  · unfold System.cycle
    split
    · next hnone =>
        rw [hnone]
        rfl
    · next core loads stores hc =>
        rw [hc, System.memoryRun, Option.isSome_map]
        exact takes_requests loads stores hcore
  · have hchain := Simulator.runOps_chain bp os hb.account.shape
    rw [(System.memory_of_runOps hops).1] at hchain
    exact refused_of_coreResponse (Simulator.chain_account hchain hb.account)

end Ahasd.Npu
