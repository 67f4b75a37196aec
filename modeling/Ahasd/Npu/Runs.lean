/-
  File:      Ahasd/Npu/Runs.lean
  Subject:   WHAT HOLDS OF EVERY RUN of the cores, the scheduler of tiles and the memory side.

  * `transfers`, `tileEvents`, `placements`: what a history shows;
  * `Account.exec`, `memory_of_runOps`: the system runs the memory side;
  * `Shown`: what an act of the scheduler shows; `launches_of_exec`: only a core that asks gets a
    tile;
  * `Books`: the account of the requests, the invariant of the scheduler, and that every tile that was
    launched has its buffers; **`Setup.books`**: they are in order in every run.
-/
import Ahasd.Npu.Readers
import Ahasd.Npu.System
import Ahasd.Simulator.Conservation
import Ahasd.Tiles.Runs

namespace Ahasd.Npu

open Transition

/-! ## 1. What a history shows -/

/-- The transfers of requests. -/
def transfers (h : List Event) : List Transfer :=
  h.filterMap fun
    | .transfer v => some v
    | _ => none

/-- The events of the scheduler. -/
def tileEvents (h : List Event) : List (TileEvent TileWork) :=
  h.filterMap fun
    | .tile e => some e
    | _ => none

/-- The tiles that were issued, with their buffers. -/
def placements (h : List Event) : List Placement :=
  h.filterMap fun
    | .placed p => some p
    | _ => none

section Shown

variable (h e : List Event)

@[simp] theorem transfers_append : transfers (h ++ e) = transfers h ++ transfers e :=
  List.filterMap_append

@[simp] theorem tileEvents_append : tileEvents (h ++ e) = tileEvents h ++ tileEvents e :=
  List.filterMap_append

@[simp] theorem placements_append : placements (h ++ e) = placements h ++ placements e :=
  List.filterMap_append

@[simp] theorem transfers_transfer (vs : List Transfer) : transfers (vs.map .transfer) = vs := by
  rw [transfers, List.filterMap_map]
  exact List.filterMap_some

@[simp] theorem tileEvents_transfer (vs : List Transfer) : tileEvents (vs.map .transfer) = [] := by
  rw [tileEvents, List.filterMap_map]
  exact List.filterMap_eq_nil_iff.mpr fun _ _ => rfl

@[simp] theorem placements_transfer (vs : List Transfer) : placements (vs.map .transfer) = [] := by
  rw [placements, List.filterMap_map]
  exact List.filterMap_eq_nil_iff.mpr fun _ _ => rfl

@[simp] theorem transfers_tile (es : List (TileEvent TileWork)) : transfers (es.map .tile) = [] := by
  rw [transfers, List.filterMap_map]
  exact List.filterMap_eq_nil_iff.mpr fun _ _ => rfl

@[simp] theorem tileEvents_tile (es : List (TileEvent TileWork)) :
    tileEvents (es.map .tile) = es := by
  rw [tileEvents, List.filterMap_map]
  exact List.filterMap_some

@[simp] theorem placements_tile (es : List (TileEvent TileWork)) :
    placements (es.map .tile) = [] := by
  rw [placements, List.filterMap_map]
  exact List.filterMap_eq_nil_iff.mpr fun _ _ => rfl

end Shown

namespace System

/-- What `Core::issue` shows is nothing of the memory side and of the scheduler, and one placement. -/
theorem issueEvents_shows (coreId : Nat) (tile : Tile) (c : SystolicCore) :
    transfers (issueEvents coreId tile c) = [] ∧ tileEvents (issueEvents coreId tile c) = [] ∧
      placements (issueEvents coreId tile c) =
        [⟨coreId, tile, (c.buffersFor tile).1, (c.buffersFor tile).2⟩] := by
  unfold issueEvents
  dsimp only
  split <;> exact ⟨rfl, rfl, rfl⟩

/-! ## 2. The memory side -/

variable {s s' : System} {bp : BackPressure}

theorem memory_of_coreResponse {coreId : Nat} {e : List Transfer}
    (hr : s.coreResponse coreId = some (s', e)) :
    s.memory.coreResponse coreId = (s'.memory, e) ∧ s'.tiles = s.tiles := by
  unfold coreResponse at hr
  dsimp only at hr
  split at hr
  · next hempty =>
      cases hr
      unfold Simulator.coreResponse
      rw [hempty]
      exact ⟨rfl, rfl⟩
  · split at hr
    · cases hr
      exact ⟨rfl, rfl⟩
    · split at hr
      · cases hr
      · obtain ⟨c, _, heq⟩ := Option.map_eq_some_iff.mp hr
        cases heq
        exact ⟨rfl, rfl⟩

/-- A part of the interconnect cycle is one of the memory side. -/
theorem memory_of_op {o : Op} {e : List Transfer} (hr : s.op bp o = some (s', e)) :
    s.memory.op bp o = (s'.memory, e) ∧ s'.tiles = s.tiles := by
  cases o with
  | coreResponse coreId => exact memory_of_coreResponse hr
  | _ =>
      cases hr
      exact ⟨rfl, rfl⟩

/-- Several parts of the interconnect cycle are those of the memory side. -/
theorem memory_of_runOps {os : List Op} {e : List Transfer} (hr : s.runOps bp os = some (s', e)) :
    Simulator.runOps bp os s.memory = (s'.memory, e) ∧ s'.tiles = s.tiles := by
  induction os generalizing s e with
  | nil =>
      cases hr
      exact ⟨rfl, rfl⟩
  | cons o os ih =>
      unfold runOps at hr
      split at hr
      · cases hr
      · next t k hop =>
          obtain ⟨⟨u, l⟩, hrest, heq⟩ := Option.map_eq_some_iff.mp hr
          cases heq
          obtain ⟨hmemory, htiles⟩ := memory_of_op hop
          obtain ⟨hmemory', htiles'⟩ := ih hrest
          refine ⟨?_, htiles'.trans htiles⟩
          unfold Simulator.runOps
          rw [hmemory]
          dsimp only
          rw [hmemory']

end System

/-- A run of the memory side keeps the account. -/
theorem account_of_run {m m' : Simulator} {h e : List Transfer} {as : List MemoryAct}
    (ha : m.Account h) (hr : Simulator.machine.run as m = some (m', e)) : m'.Account (h ++ e) := by
  refine (exec_of_run hr).invariant (P := fun t k => t.Account (h ++ k)) ?_ ?_
  · rwa [List.append_nil]
  · intro t k a t' ht hs
    obtain ⟨v, hexec, hobs⟩ := Simulator.machine_step hs
    rw [hobs, ← List.append_assoc]
    exact Simulator.chain_account (Simulator.exec_chain ht.shape hexec) ht

/-! ## 3. The scheduler -/

section Launches

variable {setup : TileSetup} {t t' : TileSystem TileWork} {h e : List (TileEvent TileWork)}

/-- What an act of the scheduler shows: something of its own, and what the status brings. -/
inductive Shown (t : TileSystem TileWork) (e : List (TileEvent TileWork)) :
    TileAct TileWork → TileEvent TileWork → Prop where
  | status (a : TileAct TileWork) (v : TileEvent TileWork) (hv : ofStatus v = true) : Shown t e a v
  | scheduled (model : { g : OperationGraph TileWork // g.Initialized }) (next : Nat) :
      Shown t e (.schedule model next) (.scheduled model.1)
  /-- A core that asks gets a tile, and nothing else happens then. -/
  | launched (core : Nat) (tile : Tile) (honly : e = [.launched core tile])
      (hmem : tile ∈ t.contents) : Shown t e (.poll core) (.launched core tile)
  | barrier (core : Nat) (tile : Tile) (hbar : tile.status = .bar) :
      Shown t e (.poll core) (.barrier tile)
  | finished (core index : Nat) (tile : Tile) : Shown t e (.finish core index) (.finished core tile)

theorem shown_of_exec (hi : TileSystem.Inv setup t h) {a : TileAct TileWork}
    (he : t.exec a = some (t', e)) {v : TileEvent TileWork} (hv : v ∈ e) : Shown t e a v := by
  cases a with
  | schedule model next =>
      rw [TileSystem.exec] at he
      split at he
      · cases he
        rcases List.mem_cons.mp hv with rfl | hv
        · exact .scheduled model next
        · exact .status _ _ (refreshStatus_shows _ _ hv)
      · cases he
  | finish c index =>
      cases hi.tended.of_finish he with
      | last tile stat hrun hstat hpos hlast r hr =>
          rcases List.mem_cons.mp hv with rfl | hv
          · exact .finished c index tile
          · exact .status _ _ (finishLayer_shows hr _ hv)
      | more tile stat hrun hstat hpos hmore =>
          rcases List.mem_cons.mp hv with rfl | hv
          · exact .finished c index tile
          · exact .status _ _ (refreshStatus_shows _ _ hv)
  | poll c =>
      rw [TileSystem.exec] at he
      split at he
      swap
      · cases he
      next hcore =>
        cases hi.tended.of_poll hcore he with
        | empty | foreign | held => cases hv
        | launch tile rest stat hown hstat hpos =>
            cases List.mem_singleton.mp hv
            refine .launched c tile rfl (TileSystem.mem_contents_of_queued ?_)
            exact Queues.mem_gather.mpr ⟨c, hcore, hown ▸ List.mem_cons_self⟩
        | refresh hown hq => exact .status _ _ (refreshStatus_shows _ _ hv)
        | last tile rest stat hb hall hlast r hr =>
            rcases List.mem_cons.mp hv with rfl | hv
            · exact .barrier c tile hb.bar
            · exact .status _ _ (finishLayer_shows hr _ hv)
        | more tile rest stat hb hall hmore =>
            cases List.mem_singleton.mp hv
            exact .barrier c tile hb.bar

/-- **Only a core that asks gets a tile.** -/
theorem launches_of_exec (hi : TileSystem.Inv setup t h) {a : TileAct TileWork}
    (he : t.exec a = some (t', e)) {core : Nat} {tile : Tile} (hl : .launched core tile ∈ e) :
    a = .poll core ∧ e = [.launched core tile] ∧ tile ∈ t.contents := by
  cases shown_of_exec hi he hl with
  | status _ _ hv => cases hv
  | launched _ _ honly hmem => exact ⟨rfl, honly, hmem⟩

/-- Only barriers are passed. -/
theorem bars_of_exec (hi : TileSystem.Inv setup t h) {a : TileAct TileWork}
    (he : t.exec a = some (t', e)) {tile : Tile} (hb : .barrier tile ∈ e) : tile.status = .bar := by
  cases shown_of_exec hi he hb with
  | status _ _ hv => cases hv
  | barrier _ _ hbar => exact hbar

/-- Only a core that gives back a tile finishes it. -/
theorem finishes_of_exec (hi : TileSystem.Inv setup t h) {a : TileAct TileWork}
    (he : t.exec a = some (t', e)) {core : Nat} {tile : Tile} (hf : .finished core tile ∈ e) :
    ∃ index, a = .finish core index := by
  cases shown_of_exec hi he hf with
  | status _ _ hv => cases hv
  | finished _ index _ => exact ⟨index, rfl⟩

end Launches

theorem launched_of_launchedTile {e : List (TileEvent TileWork)} {tile : Tile}
    (h : System.launchedTile e = some tile) : ∃ core, .launched core tile ∈ e := by
  obtain ⟨v, hv, heq⟩ := List.exists_of_findSome?_eq_some h
  cases v with
  | launched core tile' =>
      cases heq
      exact ⟨core, hv⟩
  | _ => cases heq

/-! ## 4. The books of a run -/

/-- **The books**: the account of the requests, the invariant of the scheduler, and that every tile
    that was launched was given buffers, and only barriers were passed. -/
structure Books (c : Setup) (s : System) (h : List Event) : Prop where
  account : s.memory.Account (transfers h)
  tiles : TileSystem.Inv c.tiles s.tiles (tileEvents h)
  placed : ∀ core tile, .launched core tile ∈ tileEvents h →
    ∃ p ∈ placements h, p.coreId = core ∧ p.tile = tile
  bars : ∀ tile, .barrier tile ∈ tileEvents h → tile.status = .bar

variable {c : Setup} {s s' : System} {h e : List Event}

/-- What keeps to the memory side. -/
theorem Books.memory (hb : Books c s h) {vs : List Transfer}
    (ha : s'.memory.Account (transfers h ++ vs)) (ht : s'.tiles = s.tiles) :
    Books c s' (h ++ vs.map .transfer) where
  account := by simpa using ha
  tiles := by simpa [ht] using hb.tiles
  placed := by simpa using hb.placed
  bars := by simpa using hb.bars

/-- What keeps to the scheduler, and launches no tile. -/
theorem Books.schedule (hb : Books c s h) {a : TileAct TileWork} {t : TileSystem TileWork}
    {es : List (TileEvent TileWork)} (he : s.tiles.exec a = some (t, es))
    (hnone : ∀ core tile, .launched core tile ∉ es) (hm : s'.memory = s.memory)
    (ht : s'.tiles = t) : Books c s' (h ++ es.map .tile) where
  account := by simpa [hm] using hb.account
  tiles := by simpa [ht] using hb.tiles.exec he
  placed core tile hl := by
    simp only [tileEvents_append, tileEvents_tile, placements_append, placements_tile,
      List.append_nil] at hl ⊢
    rcases List.mem_append.mp hl with hl | hl
    · exact hb.placed core tile hl
    · exact absurd hl (hnone core tile)
  bars tile hmem := by
    rw [tileEvents_append, tileEvents_tile] at hmem
    exact (List.mem_append.mp hmem).elim (hb.bars tile) (bars_of_exec hb.tiles he)

/-- A core gets a tile, and gives it buffers. -/
theorem Books.issue (hb : Books c s h) {coreId : Nat} {tile : Tile} {t : TileSystem TileWork}
    {es : List (TileEvent TileWork)} (he : s.tiles.exec (.poll coreId) = some (t, es))
    (hes : es = [.launched coreId tile]) (core : SystolicCore) (hm : s'.memory = s.memory)
    (ht : s'.tiles = t) :
    Books c s' (h ++ (es.map .tile ++ System.issueEvents coreId tile core)) := by
  obtain ⟨htransfers, htiles, hplacements⟩ := System.issueEvents_shows coreId tile core
  exact
    { account := by simpa [hm, htransfers] using hb.account
      tiles := by simpa [ht, htiles] using hb.tiles.exec he
      placed := fun core' tile' hl => by
        simp only [tileEvents_append, tileEvents_tile, htiles, placements_append, placements_tile,
          hplacements, List.append_nil, List.nil_append, hes] at hl ⊢
        rcases List.mem_append.mp hl with hl | hl
        · obtain ⟨p, hp, heq⟩ := hb.placed core' tile' hl
          exact ⟨p, List.mem_append_left _ hp, heq⟩
        · cases List.mem_singleton.mp hl
          exact ⟨_, List.mem_append_right _ List.mem_cons_self, rfl, rfl⟩
      bars := fun tile' hmem => by
        rw [tileEvents_append, tileEvents_append, tileEvents_tile, htiles, List.append_nil] at hmem
        exact (List.mem_append.mp hmem).elim (hb.bars tile') (bars_of_exec hb.tiles he) }

/-! ## 5. What a step is -/

namespace System

/-- What a step comes to. -/
inductive Steps (s : System) : System → List Event → Prop where
  | nothing : Steps s s []
  | scheduled (model : { g : OperationGraph TileWork // g.Initialized }) (next : Nat)
      (t : TileSystem TileWork) (es : List (TileEvent TileWork))
      (he : s.tiles.exec (.schedule model next) = some (t, es)) :
      Steps s { s with tiles := t } (es.map .tile)
  /-- A finished tile goes back. -/
  | finished (coreId : Nat) (tile : Tile) (core : SystolicCore) (t : TileSystem TileWork)
      (es : List (TileEvent TileWork))
      (hpop : (s.cores coreId).popFinishedTile = some (tile, core))
      (he : s.tiles.exec (.finish coreId ((s.tiles.running coreId).idxOf tile)) = some (t, es)) :
      Steps s { s with tiles := t, cores := Function.update s.cores coreId core } (es.map .tile)
  /-- A core asks in vain. -/
  | asked (coreId : Nat) (t : TileSystem TileWork) (es : List (TileEvent TileWork))
      (he : s.tiles.exec (.poll coreId) = some (t, es)) (hnone : launchedTile es = none) :
      Steps s { s with tiles := t } (es.map .tile)
  /-- A core takes a tile. -/
  | issued (coreId : Nat) (tile : Tile) (t : TileSystem TileWork) (es : List (TileEvent TileWork))
      (hroom : (s.cores coreId).canIssue = true)
      (he : s.tiles.exec (.poll coreId) = some (t, es)) (hsome : launchedTile es = some tile) :
      Steps s
        { s with
          tiles := t
          cores := Function.update s.cores coreId ((s.cores coreId).issue tile) }
        (es.map .tile ++ issueEvents coreId tile (s.cores coreId))
  | cycled (coreId : Nat) (clock : Clock) (core : SystolicCore)
      (loads : List (SpadSlot × MemoryAccess)) (stores : List MemoryAccess) (m : Simulator)
      (vs : List Transfer)
      (hc : (s.cores coreId).cycle s.dramReqSize clock = some (core, loads, stores))
      (hm : Simulator.machine.run (requestActs coreId loads stores) s.memory = some (m, vs)) :
      Steps s { s with memory := m, cores := Function.update s.cores coreId core }
        (vs.map .transfer)
  | interconnect (bp : BackPressure) (t : System) (vs : List Transfer)
      (hr : s.runOps bp s.memory.ops = some (t, vs)) : Steps s t (vs.map .transfer)
  /-- The rest of the memory side, which makes no loads. -/
  | memory (a : MemoryAct) (m : Simulator) (vs : List Transfer)
      (hr : Simulator.machine.run [a] s.memory = some (m, vs))
      (hloads : ∀ coreId, (m.cores coreId).loads = (s.memory.cores coreId).loads) :
      Steps s { s with memory := m } (vs.map .transfer)

variable {s s' : System} {e : List Event}

/-- The rest of the memory side leaves the loads. -/
theorem loads_of_deliver {m : Simulator} {index : Nat} {node : Node}
    {r : Simulator × List Transfer} (hr : m.deliver index node = some r) :
    ∀ coreId, (r.1.cores coreId).loads = (m.cores coreId).loads := by
  intro coreId
  cases node with
  | core c =>
      obtain ⟨access, _, rfl⟩ := Option.map_eq_some_iff.mp hr
      rfl
  | memory memId =>
      obtain ⟨access, _, rfl⟩ := Option.map_eq_some_iff.mp hr
      rfl

theorem steps_of_memory {a : MemoryAct} (hr : s.memoryRun [a] = some (s', e))
    (hloads : ∀ r, s.memory.exec a = some r →
      ∀ coreId, (r.1.cores coreId).loads = (s.memory.cores coreId).loads) : s.Steps s' e := by
  obtain ⟨⟨m, vs⟩, hm, heq⟩ := Option.map_eq_some_iff.mp hr
  cases heq
  refine .memory a m vs hm ?_
  have hrun := hm
  unfold Machine.run at hrun
  split at hrun
  · cases hrun
  · next m' hstep =>
      obtain ⟨r, hexec, rfl⟩ := Option.map_eq_some_iff.mp hstep
      cases hrun
      exact hloads r hexec

/-- **A step is one of these.** -/
theorem steps_of_exec {a : Act} (he : s.exec a = some (s', e)) : s.Steps s' e := by
  cases a with
  | schedule model next =>
      obtain ⟨⟨t, es⟩, ht, heq⟩ := Option.map_eq_some_iff.mp he
      cases heq
      exact .scheduled model next t es ht
  | popFinished coreId =>
      simp only [exec, popFinished] at he
      split at he
      · cases he
        exact .nothing
      · next tile core hpop =>
          obtain ⟨⟨t, es⟩, ht, heq⟩ := Option.map_eq_some_iff.mp he
          cases heq
          exact .finished coreId tile core t es hpop ht
  | issue coreId =>
      simp only [exec, issue] at he
      split at he
      · next hroom =>
          obtain ⟨⟨t, es⟩, ht, heq⟩ := Option.map_eq_some_iff.mp he
          dsimp only at heq
          split at heq
          · next hnone =>
              cases heq
              exact .asked coreId t es ht hnone
          · next tile hsome =>
              cases heq
              exact .issued coreId tile t es hroom ht hsome
      · cases he
        exact .nothing
  | cycle coreId clock =>
      simp only [exec, cycle] at he
      split at he
      · cases he
      · next core loads stores hc =>
          obtain ⟨⟨m, vs⟩, hm, heq⟩ := Option.map_eq_some_iff.mp he
          cases heq
          exact .cycled coreId clock core loads stores m vs hc hm
  | icntCycle bp =>
      obtain ⟨⟨t, vs⟩, hr, heq⟩ := Option.map_eq_some_iff.mp he
      cases heq
      exact .interconnect bp t vs hr
  | memory a =>
      cases a with
      | load | store | icntCycle => cases he
      | deliver node index => exact steps_of_memory he fun r hr => loads_of_deliver hr
      | answer memId index =>
          refine steps_of_memory he fun r hr coreId => ?_
          obtain ⟨m, hm, rfl⟩ := Option.map_eq_some_iff.mp hr
          obtain ⟨access, _, rfl⟩ := Option.map_eq_some_iff.mp hm
          rfl
      | _ =>
          refine steps_of_memory he fun r hr coreId => ?_
          cases hr
          rfl

end System

/-- **A step keeps the books.** -/
theorem Books.step (hb : Books c s h) (hs : s.Steps s' e) : Books c s' (h ++ e) := by
  cases hs with
  | nothing => rwa [List.append_nil]
  | scheduled model next t es he =>
      refine hb.schedule he (fun core tile hl => ?_) rfl rfl
      cases (launches_of_exec hb.tiles he hl).1
  | finished coreId tile core t es hpop he =>
      refine hb.schedule he (fun core tile hl => ?_) rfl rfl
      cases (launches_of_exec hb.tiles he hl).1
  | asked coreId t es he hnone =>
      refine hb.schedule he (fun core tile hl => ?_) rfl rfl
      obtain ⟨_, rfl, _⟩ := launches_of_exec hb.tiles he hl
      cases hnone
  | issued coreId tile t es hroom he hsome =>
      obtain ⟨core, hl⟩ := launched_of_launchedTile hsome
      obtain ⟨hcore, hes, _⟩ := launches_of_exec hb.tiles he hl
      cases hcore
      exact hb.issue he hes _ rfl rfl
  | cycled coreId clock core loads stores m vs hc hm =>
      exact hb.memory (account_of_run hb.account hm) rfl
  | interconnect bp t vs hr =>
      obtain ⟨hmemory, htiles⟩ := System.memory_of_runOps hr
      have hchain := Simulator.runOps_chain bp s.memory.ops hb.account.shape
      rw [hmemory] at hchain
      exact hb.memory (Simulator.chain_account hchain hb.account) htiles
  | memory a m vs hr _ => exact hb.memory (account_of_run hb.account hr) rfl

theorem Setup.start_books (c : Setup) : Books c c.start [] where
  account := c.memory.start_account
  tiles := c.tiles.start_inv
  placed _ _ hl := by cases hl
  bars _ hmem := by cases hmem

/-- **The books are in order in every run.** -/
theorem Setup.books (hr : Exec System.machine c.start s h) : Books c s h := by
  refine hr.invariant c.start_books fun s h a s' hb hs => ?_
  obtain ⟨e, he, hobs⟩ := System.exec_of_step hs
  rw [hobs]
  exact hb.step (System.steps_of_exec he)

end Ahasd.Npu
