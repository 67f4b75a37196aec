/-
  File:      Ahasd/Tiles/Rules.lean
  Subject:   WHAT THE SCHEDULER OF TILES DOES, in rules: every act is a chain of eight rules.

  * `Rule`: a model is scheduled or finished; a layer starts or is finished; a tile goes to a core's
    queue, is launched or finished; a barrier is passed;
  * `chain_issueLoop`, `chain_refreshStatus`: the parts of the scheduler;
  * `Tended`: every tile has the entry of its layer;
  * `Asked`, `Ended`: what the question of a core and the end of a tile come to; **`Tended.asked`**,
    **`Tended.ended`**: no assertion fails;
  * **`Tended.exec_chain`**: the acts are chains of rules. No later proof unfolds the functions of
    the scheduler that a core calls.
-/
import Ahasd.Lib.Queues
import Ahasd.Tiles.Scheduler
import Mathlib.Data.List.GetD

namespace Ahasd

open Transition Queues

variable {τ : Type}

/-! ## 1. The entries of the layers -/

namespace TileScheduler

variable {s : TileScheduler τ} {layer : Nat} {stat stat' : LayerStat}

@[simp] theorem layerStat_setStat : (s.setStat layer stat).layerStat layer = some stat := by
  simp [layerStat, setStat]

@[simp] theorem setStat_setStat :
    (s.setStat layer stat).setStat layer stat' = s.setStat layer stat' := by
  simp [setStat, List.filter_filter]

/-- The entry is erased, whatever it was set to. -/
@[simp] theorem finishLayer_setStat :
    (s.setStat layer stat).finishLayer layer = s.finishLayer layer := by
  simp [finishLayer, eraseStat, setStat, List.filter_filter]

/-- The only entry is set. -/
theorem setStat_of_single (h : s.activeLayersMap = [(layer, stat)]) :
    (s.setStat layer stat').activeLayersMap = [(layer, stat')] := by
  simp [setStat, h]

theorem layerStat_of_single (h : s.activeLayersMap = [(layer, stat)]) :
    s.layerStat layer = some stat := by
  simp [layerStat, h]

/-- What is left when the layer starts. -/
def started (model : OperationGraph τ) (later : List (OperationGraph τ)) (layer : Nat)
    (rest : List Nat) (s : TileScheduler τ) : TileScheduler τ :=
  let model := { model with executableLayer := rest }
  let queue := s.executableTileQueue 0 ++ model.getTiles layer
  let s :=
    { s with
      requestQueue := model.clearTiles layer :: later
      executableTileQueue := Function.update s.executableTileQueue 0 queue
      nrLayer := s.nrLayer + 1 }
  s.setStat layer { totalTiles := queue.length, remainTiles := queue.length }

end TileScheduler

/-! ## 2. The rules -/

namespace TileSystem

/-- What happens, one thing at a time. -/
inductive Rule : TileSystem τ → TileSystem τ → List (TileEvent τ) → Prop where
  | schedule (s : TileSystem τ) (model : OperationGraph τ) (next : Nat) (hI : model.Initialized)
      (hfresh : s.Fresh model next) :
      Rule s
        { s with
          sched := { s.sched with requestQueue := s.sched.requestQueue ++ [model] }
          idCounter := next }
        [.scheduled model]
  | popModel (s : TileSystem τ) (model : OperationGraph τ) (later : List (OperationGraph τ))
      (hq : s.sched.requestQueue = model :: later) (hfinish : model.checkFinish = true) :
      Rule s { s with sched := { s.sched with requestQueue := later } } [.modelFinished model.id]
  | startLayer (s : TileSystem τ) (model : OperationGraph τ) (later : List (OperationGraph τ))
      (layer : Nat) (rest : List Nat) (hq : s.sched.requestQueue = model :: later)
      (hempty : s.sched.tileQueueEmpty = true) (hactive : s.sched.activeLayersMap = [])
      (hx : model.executableLayer = layer :: rest) :
      Rule s { s with sched := s.sched.started model later layer rest }
        [.layerStarted model.id layer]
  | issue (s : TileSystem τ) (partition core : Nat) (tile : ScheduledTile τ)
      (rest : List (ScheduledTile τ)) (hq : s.sched.executableTileQueue partition = tile :: rest)
      (hbar : tile.status ≠ .bar) (hcore : core < s.sched.numCores) :
      Rule s { s with sched := s.sched.issueTile partition core tile rest } []
  | launch (s : TileSystem τ) (core : Nat) (tile : ScheduledTile τ)
      (rest : List (ScheduledTile τ)) (stat : LayerStat) (hcore : core < s.sched.numCores)
      (hq : s.sched.coreExecutableTileQueue core = tile :: rest)
      (hstat : s.sched.layerStat tile.layerId = some stat) :
      Rule s
        { s with
          sched := TileScheduler.setStat tile.layerId
            { stat with launchedTiles := stat.launchedTiles + 1 }
            { s.sched with
              coreExecutableTileQueue :=
                Function.update s.sched.coreExecutableTileQueue core rest }
          running := Function.update s.running core (s.running core ++ [tile]) }
        [.launched core tile]
  | barrier (s : TileSystem τ) (partition : Nat) (tile : ScheduledTile τ)
      (rest : List (ScheduledTile τ)) (stat : LayerStat)
      (hq : s.sched.executableTileQueue partition = tile :: rest) (hbar : tile.status = .bar)
      (hstat : s.sched.layerStat tile.layerId = some stat)
      (hall : stat.launchedTiles = stat.finishedTiles) (hpos : stat.remainTiles ≠ 0) :
      Rule s
        { s with
          sched := TileScheduler.setStat tile.layerId
            { stat with
              launchedTiles := stat.launchedTiles + 1
              finishedTiles := stat.finishedTiles + 1
              remainTiles := stat.remainTiles - 1 }
            { s.sched with
              executableTileQueue := Function.update s.sched.executableTileQueue partition rest } }
        [.barrier tile]
  | finish (s : TileSystem τ) (core index : Nat) (tile : ScheduledTile τ) (stat : LayerStat)
      (hrun : (s.running core)[index]? = some tile)
      (hstat : s.sched.layerStat tile.layerId = some stat) (hpos : stat.remainTiles ≠ 0) :
      Rule s
        { s with
          sched := s.sched.setStat tile.layerId
            { stat with
              remainTiles := stat.remainTiles - 1
              finishedTiles := stat.finishedTiles + 1 }
          running := Function.update s.running core ((s.running core).eraseIdx index) }
        [.finished core tile]
  | finishLayer (s : TileSystem τ) (model : OperationGraph τ) (later : List (OperationGraph τ))
      (layer : Nat) (stat : LayerStat) (hq : s.sched.requestQueue = model :: later)
      (hstat : s.sched.layerStat layer = some stat) (hzero : stat.remainTiles = 0) :
      Rule s
        { s with
          sched := TileScheduler.eraseStat layer
            { s.sched with requestQueue := model.setLayerFinish layer :: later } }
        [.layerFinished model.id layer]

/-! ## 3. The parts of the scheduler -/

variable {s : TileSystem τ}

/-- The loop that gives tiles to the cores. -/
theorem chain_issueLoop {coreOf : TileScheduler τ → ScheduledTile τ → Nat} {partition n : Nat}
    (hcore : ∀ (t : TileScheduler τ) tile, t.numCores = n → coreOf t tile < n) :
    ∀ (tiles : List (ScheduledTile τ)) (s : TileSystem τ), s.sched.numCores = n →
      s.sched.executableTileQueue partition = tiles →
      Chain Rule s { s with sched := s.sched.issueLoop coreOf partition tiles } [] := by
  intro tiles
  induction tiles with
  | nil => exact fun s _ _ => .nil s
  | cons tile rest ih =>
      intro s hn hq
      rw [TileScheduler.issueLoop]
      split
      · exact .nil s
      · next hbar =>
          have hrule := Rule.issue s partition (coreOf s.sched tile) tile rest hq hbar
            (hn ▸ hcore s.sched tile hn)
          exact .cons hrule (ih _ hn (Function.update_self _ _ _))

/-- The loop over all cores. -/
theorem chain_issueTilePerCore (hpos : 0 < s.sched.numCores) :
    Chain Rule s { s with sched := s.sched.issueTilePerCore } [] :=
  chain_issueLoop (fun _ _ hn => hn ▸ Nat.mod_lt _ (hn ▸ hpos)) _ s rfl rfl

/-- The loop over the cores of a partition. -/
theorem chain_issueTilePerCoreOf {allowed : List Nat} (hne : allowed ≠ [])
    (hlt : ∀ core ∈ allowed, core < s.sched.numCores) (offset partition : Nat) :
    Chain Rule s { s with sched := s.sched.issueTilePerCoreOf allowed offset partition } [] := by
  refine chain_issueLoop (fun t tile _ => hlt _ ?_) _ s rfl rfl
  rw [List.getD_eq_getElem _ _ (Nat.mod_lt _ (List.length_pos_of_ne_nil hne))]
  exact List.getElem_mem _

/-- The model that is finished. -/
theorem chain_popFinished :
    Chain Rule s { s with sched := s.sched.popFinished.1 } s.sched.popFinished.2 := by
  rw [TileScheduler.popFinished]
  split
  · exact .nil s
  · next model later hq =>
      split
      · next hfinish => exact .one (.popModel s model later hq hfinish)
      · exact .nil s

/-- The layer that starts. -/
theorem chain_startLayer (hpos : 0 < s.sched.numCores) :
    Chain Rule s { s with sched := s.sched.startLayer.1 } s.sched.startLayer.2 := by
  rw [TileScheduler.startLayer]
  split
  · exact .nil s
  · next model later hq =>
      split
      · next hidle =>
          obtain ⟨hempty, hactive⟩ := Bool.and_eq_true_iff.mp hidle
          rw [OperationGraph.getExecutableTile]
          cases hx : model.executableLayer with
          | nil => exact .nil s
          | cons layer rest =>
              have hrule := Rule.startLayer s model later layer rest hq hempty
                (List.isEmpty_iff.mp hactive) hx
              exact .cons hrule (chain_issueTilePerCore hpos)
      · exact .nil s

@[simp] theorem popFinished_numCores (t : TileScheduler τ) :
    t.popFinished.1.numCores = t.numCores := by
  rw [TileScheduler.popFinished]
  split
  · rfl
  · split <;> rfl

/-- `refresh_status`. -/
theorem chain_refreshStatus (hpos : 0 < s.sched.numCores) :
    Chain Rule s { s with sched := s.sched.refreshStatus.1 } s.sched.refreshStatus.2 := by
  have hstart := chain_startLayer (s := { s with sched := s.sched.popFinished.1 })
    (by simpa using hpos)
  exact chain_popFinished.trans hstart

/-! ## 4. Tiles and the entries of their layers -/

/-- The tiles that wait in the queues of cores. -/
def queued (s : TileSystem τ) : Multiset (ScheduledTile τ) :=
  gather s.sched.coreExecutableTileQueue s.sched.numCores

/-- The tiles that run. -/
def runs (s : TileSystem τ) : Multiset (ScheduledTile τ) := gather s.running s.sched.numCores

/-- The tiles of the system: at the barrier, in queues and on cores. -/
def contents (s : TileSystem τ) : Multiset (ScheduledTile τ) :=
  (s.sched.executableTileQueue 0 : Multiset (ScheduledTile τ)) + s.queued + s.runs

/-- **Every tile has the entry of its layer**, which counts it, and the model of the layer is
    there; only tiles to run are in the queues of cores. -/
structure Tended (s : TileSystem τ) : Prop where
  cores_pos : 0 < s.sched.numCores
  some_core : s.sched.partitionMap 0 ≠ []
  cores_lt : ∀ core ∈ s.sched.partitionMap 0, core < s.sched.numCores
  elsewhere : ∀ partition, partition ≠ 0 → s.sched.executableTileQueue partition = []
  outside : ∀ core, s.sched.numCores ≤ core → s.running core = []
  entry : ∀ tile ∈ s.contents, ∃ stat, s.sched.layerStat tile.layerId = some stat ∧
    stat.remainTiles ≠ 0
  model : ∀ tile ∈ s.contents, s.sched.requestQueue ≠ []
  issued : ∀ tile ∈ s.queued, tile.status = .initialized

variable {core index : Nat} {tile : ScheduledTile τ} {rest : List (ScheduledTile τ)}

theorem mem_contents_of_waiting (h : tile ∈ s.sched.executableTileQueue 0) : tile ∈ s.contents :=
  Multiset.mem_add.mpr (.inl (Multiset.mem_add.mpr (.inl (Multiset.mem_coe.mpr h))))

theorem mem_contents_of_queued (h : tile ∈ s.queued) : tile ∈ s.contents :=
  Multiset.mem_add.mpr (.inl (Multiset.mem_add.mpr (.inr h)))

theorem mem_contents_of_runs (h : tile ∈ s.runs) : tile ∈ s.contents :=
  Multiset.mem_add.mpr (.inr h)

/-! ## 5. What a core's question and the end of a tile come to -/

/-- A barrier is passed. -/
def passed (tile : ScheduledTile τ) (rest : List (ScheduledTile τ)) (stat : LayerStat)
    (s : TileSystem τ) : TileSystem τ :=
  { s with
    sched := TileScheduler.setStat tile.layerId
      { stat with
        launchedTiles := stat.launchedTiles + 1
        finishedTiles := stat.finishedTiles + 1
        remainTiles := stat.remainTiles - 1 }
      { s.sched with
        executableTileQueue := Function.update s.sched.executableTileQueue 0 rest } }

/-- A tile of a core ended, and is counted. -/
def counted (core index : Nat) (tile : ScheduledTile τ) (stat : LayerStat) (s : TileSystem τ) :
    TileSystem τ :=
  { s with
    sched := s.sched.setStat tile.layerId
      { stat with
        remainTiles := stat.remainTiles - 1
        finishedTiles := stat.finishedTiles + 1 }
    running := Function.update s.running core ((s.running core).eraseIdx index) }

/-- A core without tiles of its own stands before a barrier. -/
structure Blocked (s : TileSystem τ) (core : Nat) (tile : ScheduledTile τ)
    (rest : List (ScheduledTile τ)) (stat : LayerStat) : Prop where
  own : s.sched.coreExecutableTileQueue core = []
  partition : s.sched.cpuToPartition core = 0
  first : s.sched.executableTileQueue 0 = tile :: rest
  bar : tile.status = .bar
  entry : s.sched.layerStat tile.layerId = some stat
  remain : stat.remainTiles ≠ 0

/-- What the question of a core comes to. -/
inductive Asked (s : TileSystem τ) (core : Nat) : TileSystem τ → List (TileEvent τ) → Prop where
  /-- There is no model. -/
  | empty (hnone : s.sched.requestQueue = []) : Asked s core s []
  /-- The core gets the first tile of its queue. -/
  | launch (tile : ScheduledTile τ) (rest : List (ScheduledTile τ)) (stat : LayerStat)
      (hown : s.sched.coreExecutableTileQueue core = tile :: rest)
      (hstat : s.sched.layerStat tile.layerId = some stat) (hpos : stat.remainTiles ≠ 0) :
      Asked s core
        { s with
          sched := TileScheduler.setStat tile.layerId
            { stat with launchedTiles := stat.launchedTiles + 1 }
            { s.sched with
              coreExecutableTileQueue :=
                Function.update s.sched.coreExecutableTileQueue core rest }
          running := Function.update s.running core (s.running core ++ [tile]) }
        [.launched core tile]
  /-- No tile is there. -/
  | refresh (hown : s.sched.coreExecutableTileQueue core = [])
      (hq : s.sched.executableTileQueue (s.sched.cpuToPartition core) = []) :
      Asked s core { s with sched := s.sched.refreshStatus.1 } s.sched.refreshStatus.2
  /-- What is first in the partition is no barrier. -/
  | foreign (tile : ScheduledTile τ) (rest : List (ScheduledTile τ))
      (hq : s.sched.executableTileQueue (s.sched.cpuToPartition core) = tile :: rest)
      (hbar : tile.status ≠ .bar) : Asked s core s []
  /-- The barrier is not passed yet. -/
  | held (tile : ScheduledTile τ) (rest : List (ScheduledTile τ)) (stat : LayerStat)
      (hb : s.Blocked core tile rest stat) (hnot : stat.launchedTiles ≠ stat.finishedTiles) :
      Asked s core s []
  /-- The barrier was the last of its layer. -/
  | last (tile : ScheduledTile τ) (rest : List (ScheduledTile τ)) (stat : LayerStat)
      (hb : s.Blocked core tile rest stat) (hall : stat.launchedTiles = stat.finishedTiles)
      (hlast : stat.remainTiles - 1 = 0) (r : TileScheduler τ × List (TileEvent τ))
      (hr : (s.passed tile rest stat).sched.finishLayer tile.layerId = some r) :
      Asked s core { s with sched := r.1.refreshStatus.1 }
        (.barrier tile :: (r.2 ++ r.1.refreshStatus.2))
  /-- Behind the barrier there are more tiles. -/
  | more (tile : ScheduledTile τ) (rest : List (ScheduledTile τ)) (stat : LayerStat)
      (hb : s.Blocked core tile rest stat) (hall : stat.launchedTiles = stat.finishedTiles)
      (hmore : stat.remainTiles - 1 ≠ 0) :
      Asked s core
        { s with
          sched := (s.passed tile rest stat).sched.issueTilePerCoreOf (s.sched.partitionMap 0)
            ((s.sched.partitionMap 0).idxOf core) 0 }
        [.barrier tile]

/-- What the end of a tile comes to. -/
inductive Ended (s : TileSystem τ) (core index : Nat) :
    TileSystem τ → List (TileEvent τ) → Prop where
  /-- It was the last of its layer. -/
  | last (tile : ScheduledTile τ) (stat : LayerStat)
      (hrun : (s.running core)[index]? = some tile)
      (hstat : s.sched.layerStat tile.layerId = some stat) (hpos : stat.remainTiles ≠ 0)
      (hlast : stat.remainTiles - 1 = 0) (r : TileScheduler τ × List (TileEvent τ))
      (hr : (s.counted core index tile stat).sched.finishLayer tile.layerId = some r) :
      Ended s core index
        { s.counted core index tile stat with sched := r.1.refreshStatus.1 }
        (.finished core tile :: (r.2 ++ r.1.refreshStatus.2))
  /-- The layer has more tiles. -/
  | more (tile : ScheduledTile τ) (stat : LayerStat)
      (hrun : (s.running core)[index]? = some tile)
      (hstat : s.sched.layerStat tile.layerId = some stat) (hpos : stat.remainTiles ≠ 0)
      (hmore : stat.remainTiles - 1 ≠ 0) :
      Ended s core index
        { s.counted core index tile stat with
          sched := (s.counted core index tile stat).sched.refreshStatus.1 }
        (.finished core tile :: (s.counted core index tile stat).sched.refreshStatus.2)

/-- A core at a barrier gets an answer. -/
theorem Tended.asked_blocked (h : s.Tended) {stat : LayerStat}
    (hb : s.Blocked core tile rest stat) :
    ∃ r, s.sched.passBarrier core 0 tile rest = some r ∧
      Asked s core { s with sched := r.1 } r.2 := by
  simp only [TileScheduler.passBarrier, hb.entry, Option.getD_some]
  by_cases hall : stat.launchedTiles = stat.finishedTiles
  swap
  · rw [if_neg hall]
    exact ⟨_, rfl, .held tile rest stat hb hall⟩
  rw [if_pos hall, if_neg hb.remain]
  by_cases hlast : stat.remainTiles - 1 = 0
  · have hmem : tile ∈ s.contents := mem_contents_of_waiting (hb.first ▸ List.mem_cons_self)
    obtain ⟨model, later, hq⟩ := List.exists_cons_of_ne_nil (h.model tile hmem)
    have hr : (s.passed tile rest stat).sched.finishLayer tile.layerId = some
        (TileScheduler.eraseStat tile.layerId
          { (s.passed tile rest stat).sched with
            requestQueue := model.setLayerFinish tile.layerId :: later },
          [.layerFinished model.id tile.layerId]) := by
      have hq : (s.passed tile rest stat).sched.requestQueue = model :: later := hq
      rw [TileScheduler.finishLayer, hq]
    have hasked := Asked.last tile rest stat hb hall hlast _ hr
    rw [passed, TileScheduler.finishLayer_setStat] at hr
    rw [if_pos hlast, TileScheduler.finishTile, TileScheduler.layerStat_setStat]
    dsimp only
    rw [if_neg Nat.one_ne_zero, if_pos rfl, TileScheduler.setStat_setStat,
      TileScheduler.finishLayer_setStat, hr]
    exact ⟨_, rfl, hasked⟩
  · have hasked := Asked.more tile rest stat hb hall hlast
    obtain ⟨first, others, hpart⟩ := List.exists_cons_of_ne_nil h.some_core
    rw [hpart] at hasked
    rw [if_neg hlast]
    dsimp only [TileScheduler.partitionMap] at hpart ⊢
    rw [hpart]
    exact ⟨_, rfl, hasked⟩

/-- **Every question of a core gets an answer, and is one of these.** -/
theorem Tended.asked (h : s.Tended) (hcore : core < s.sched.numCores) :
    ∃ r, s.poll core = some r ∧ Asked s core r.1 r.2 := by
  rw [poll]
  split
  · next hnone => exact ⟨_, rfl, .empty (List.isEmpty_iff.mp hnone)⟩
  rw [take, TileScheduler.getTile]
  cases hown : s.sched.coreExecutableTileQueue core with
  | cons tile rest =>
      have hmem : tile ∈ s.queued :=
        mem_gather.mpr ⟨core, hcore, hown ▸ List.mem_cons_self⟩
      obtain ⟨stat, hstat, hpos⟩ := h.entry tile (mem_contents_of_queued hmem)
      dsimp only
      rw [Option.map_some, hstat]
      dsimp only
      rw [if_pos (h.issued tile hmem)]
      exact ⟨_, rfl, .launch tile rest stat hown hstat hpos⟩
  | nil =>
      dsimp only
      cases hq : s.sched.executableTileQueue (s.sched.cpuToPartition core) with
      | nil => exact ⟨_, rfl, .refresh hown hq⟩
      | cons tile rest =>
          dsimp only
          split
          swap
          · next hbar => exact ⟨_, rfl, .foreign tile rest hq hbar⟩
          next hbar =>
            -- only the first partition has tiles
            have hzero : s.sched.cpuToPartition core = 0 := by
              by_contra hne
              rw [h.elsewhere _ hne] at hq
              cases hq
            rw [hzero] at hq ⊢
            have hmem : tile ∈ s.contents := mem_contents_of_waiting (hq ▸ List.mem_cons_self)
            obtain ⟨stat, hstat, hpos⟩ := h.entry tile hmem
            obtain ⟨r, hr, hasked⟩ := h.asked_blocked ⟨hown, hzero, hq, hbar, hstat, hpos⟩
            rw [hr]
            exact ⟨_, rfl, hasked⟩

/-- **Every tile that runs can end, in one of these ways.** -/
theorem Tended.ended (h : s.Tended) (hrun : (s.running core)[index]? = some tile) :
    ∃ r, s.finish core index = some r ∧ Ended s core index r.1 r.2 := by
  have hcore : core < s.sched.numCores := by
    by_contra hge
    rw [h.outside core (Nat.le_of_not_lt hge)] at hrun
    cases hrun
  have hmem : tile ∈ s.contents :=
    mem_contents_of_runs (mem_gather.mpr ⟨core, hcore, List.mem_of_getElem? hrun⟩)
  obtain ⟨stat, hstat, hpos⟩ := h.entry tile hmem
  rw [finish, hrun]
  dsimp only
  rw [TileScheduler.finishTile, hstat]
  dsimp only
  rw [if_neg hpos]
  split
  · next hlast =>
      obtain ⟨model, later, hq⟩ := List.exists_cons_of_ne_nil (h.model tile hmem)
      have hr : (s.counted core index tile stat).sched.finishLayer tile.layerId = some
          (TileScheduler.eraseStat tile.layerId
            { (s.counted core index tile stat).sched with
              requestQueue := model.setLayerFinish tile.layerId :: later },
            [.layerFinished model.id tile.layerId]) := by
        have hq : (s.counted core index tile stat).sched.requestQueue = model :: later := hq
        rw [TileScheduler.finishLayer, hq]
      have hended := Ended.last tile stat hrun hstat hpos hlast _ hr
      rw [counted] at hr
      rw [hr]
      exact ⟨_, rfl, hended⟩
  · next hmore => exact ⟨_, rfl, .more tile stat hrun hstat hpos hmore⟩

/-- A core that asks. -/
theorem Tended.of_poll (h : s.Tended) (hcore : core < s.sched.numCores) {s' : TileSystem τ}
    {e : List (TileEvent τ)} (he : s.poll core = some (s', e)) : Asked s core s' e := by
  obtain ⟨r, hr, hasked⟩ := h.asked hcore
  rw [he] at hr
  cases hr
  exact hasked

/-- A tile that ends. -/
theorem Tended.of_finish (h : s.Tended) {s' : TileSystem τ} {e : List (TileEvent τ)}
    (he : s.finish core index = some (s', e)) : Ended s core index s' e := by
  cases hrun : (s.running core)[index]? with
  | none =>
      rw [finish, hrun] at he
      cases he
  | some tile =>
      obtain ⟨r, hr, hended⟩ := h.ended hrun
      rw [he] at hr
      cases hr
      exact hended

/-! ## 6. The acts are chains of rules -/

/-- The layer that has just been counted down to nothing. -/
theorem chain_finishLayer {layer : Nat} {stat : LayerStat} (hpos : 0 < s.sched.numCores)
    (hstat : s.sched.layerStat layer = some stat) (hzero : stat.remainTiles = 0)
    {r : TileScheduler τ × List (TileEvent τ)} (hr : s.sched.finishLayer layer = some r) :
    Chain Rule s { s with sched := r.1.refreshStatus.1 } (r.2 ++ r.1.refreshStatus.2) := by
  rw [TileScheduler.finishLayer] at hr
  split at hr
  · cases hr
  · next model later hq =>
      cases hr
      have hrule := Rule.finishLayer s model later layer stat hq hstat hzero
      exact .cons hrule (chain_refreshStatus hpos)

theorem Ended.chain (h : s.Tended) {s' : TileSystem τ} {e : List (TileEvent τ)}
    (he : Ended s core index s' e) : Chain Rule s s' e := by
  cases he with
  | last tile stat hrun hstat hpos hlast r hr =>
      have hrule := Rule.finish s core index tile stat hrun hstat hpos
      have hchain := chain_finishLayer (s := s.counted core index tile stat) h.cores_pos
        TileScheduler.layerStat_setStat hlast hr
      exact .cons hrule hchain
  | more tile stat hrun hstat hpos hmore =>
      have hrule := Rule.finish s core index tile stat hrun hstat hpos
      have hchain := chain_refreshStatus (s := s.counted core index tile stat) h.cores_pos
      exact .cons hrule hchain

theorem Asked.chain (h : s.Tended) (hcore : core < s.sched.numCores) {s' : TileSystem τ}
    {e : List (TileEvent τ)} (ha : Asked s core s' e) : Chain Rule s s' e := by
  cases ha with
  | empty | foreign | held => exact .nil s
  | launch tile rest stat hown hstat hpos =>
      exact .one (.launch s core tile rest stat hcore hown hstat)
  | refresh hown hq => exact chain_refreshStatus h.cores_pos
  | last tile rest stat hb hall hlast r hr =>
      have hrule := Rule.barrier s 0 tile rest stat hb.first hb.bar hb.entry hall hb.remain
      have hchain := chain_finishLayer (s := s.passed tile rest stat) h.cores_pos
        TileScheduler.layerStat_setStat hlast hr
      exact .cons hrule hchain
  | more tile rest stat hb hall hmore =>
      have hrule := Rule.barrier s 0 tile rest stat hb.first hb.bar hb.entry hall hb.remain
      have hchain := chain_issueTilePerCoreOf (s := s.passed tile rest stat) h.some_core h.cores_lt
        ((s.sched.partitionMap 0).idxOf core) 0
      exact .cons hrule hchain

/-- A model that is scheduled. -/
theorem Tended.chain_schedule (h : s.Tended) (model : { g : OperationGraph τ // g.Initialized })
    (next : Nat) (hfresh : s.Fresh model.1 next) :
    ∃ r, s.exec (.schedule model next) = some r ∧ Chain Rule s r.1 r.2 := by
  rw [exec, if_pos hfresh]
  have hrule := Rule.schedule s model.1 next model.2 hfresh
  exact ⟨_, rfl, .cons hrule (chain_refreshStatus h.cores_pos)⟩

/-- **An act is a chain of rules.** -/
theorem Tended.exec_chain (h : s.Tended) {s' : TileSystem τ} {a : TileAct τ}
    {e : List (TileEvent τ)} (he : s.exec a = some (s', e)) : Chain Rule s s' e := by
  cases a with
  | schedule model next =>
      rw [exec] at he
      split at he
      · next hfresh =>
          obtain ⟨r, hr, hchain⟩ := h.chain_schedule model next hfresh
          rw [exec, if_pos hfresh, he] at hr
          cases hr
          exact hchain
      · cases he
  | poll core =>
      rw [exec] at he
      split at he
      · next hcore => exact (h.of_poll hcore he).chain h hcore
      · cases he
  | finish core index => exact (h.of_finish he).chain h

end TileSystem

end Ahasd
