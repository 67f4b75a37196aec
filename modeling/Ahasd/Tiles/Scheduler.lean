/-
  File:      Ahasd/Tiles/Scheduler.lean
  Subject:   THE SCHEDULER OF TILES (Scheduler.cc, `scheduler_type: simple`), and the part of
             `Simulator::cycle` that asks it.

  Models wait in a queue; only the first has work under way, and only one layer of it. The tiles of
  the layer go to the queues of the cores, up to the next barrier. A core that asks gets the first
  tile of its queue; when there is none, it may find the barrier and take it away.

  `none` stands for an assertion that fails, and for what has no defined behaviour. Counters are
  naturals; the one subtraction that could wrap is `none`.

  * `refreshStatus`, `scheduleModel`, `getTile`, `finishTile`: the scheduler;
  * `TileSystem`, `exec`: the scheduler with the tiles that run on the cores, which end in any
    order;
  * `TileSetup`: a configuration.
-/
import Ahasd.Tiles.OperationGraph
import Ahasd.Lib.Transition

namespace Ahasd

open Transition

/-! ## 1. The scheduler -/

/-- `LayerStat`, its counters. -/
structure LayerStat where
  totalTiles : Nat := 0
  remainTiles : Nat := 0
  finishedTiles : Nat := 0
  launchedTiles : Nat := 0
  deriving DecidableEq, Repr

/-- `Scheduler`. A partition has an id and its cores; `executableTileQueue` is by partition, the
    other queues by core. -/
structure TileScheduler (τ : Type) where
  numCores : Nat
  partitions : List (Nat × List Nat)
  requestQueue : List (OperationGraph τ) := []
  executableTileQueue : Nat → List (ScheduledTile τ) := fun _ => []
  coreExecutableTileQueue : Nat → List (ScheduledTile τ) := fun _ => []
  activeLayersMap : List (Nat × LayerStat) := []
  coreRrId : Nat := 0
  nrLayer : Nat := 0

/-- What a step shows. A tile is shown with the core it runs on, a layer with its model. -/
inductive TileEvent (τ : Type) where
  | scheduled (model : OperationGraph τ)
  | layerStarted (model layer : Nat)
  | launched (core : Nat) (tile : ScheduledTile τ)
  | barrier (tile : ScheduledTile τ)
  | finished (core : Nat) (tile : ScheduledTile τ)
  | layerFinished (model layer : Nat)
  | modelFinished (model : Nat)

namespace TileScheduler

variable {τ : Type}

/-- `cpu_to_partition`: the last partition that lists the core, else 0. -/
def cpuToPartition (s : TileScheduler τ) (cpu : Nat) : Nat :=
  ((s.partitions.reverse.find? fun p => p.2.contains cpu).map Prod.fst).getD 0

/-- The cores of a partition; none where there is no such partition. -/
def partitionMap (s : TileScheduler τ) (partition : Nat) : List Nat :=
  (s.partitions.lookup partition).getD []

/-- The entry of a layer. -/
def layerStat (layer : Nat) (s : TileScheduler τ) : Option LayerStat :=
  s.activeLayersMap.lookup layer

/-- The entry of a layer is set. -/
def setStat (layer : Nat) (stat : LayerStat) (s : TileScheduler τ) : TileScheduler τ :=
  { s with activeLayersMap := (layer, stat) :: s.activeLayersMap.filter fun e => e.1 != layer }

/-- The entry of a layer is erased. -/
def eraseStat (layer : Nat) (s : TileScheduler τ) : TileScheduler τ :=
  { s with activeLayersMap := s.activeLayersMap.filter fun e => e.1 != layer }

/-- `tile_queue_empty`. -/
def tileQueueEmpty (s : TileScheduler τ) : Bool :=
  ((List.range s.numCores).all fun core => (s.coreExecutableTileQueue core).isEmpty) &&
    (s.executableTileQueue 0).isEmpty

/-- A tile goes from the queue of a partition, of which `rest` is left, to the queue of a core. -/
def issueTile (partition core : Nat) (tile : ScheduledTile τ) (rest : List (ScheduledTile τ))
    (s : TileScheduler τ) : TileScheduler τ :=
  { s with
    executableTileQueue := Function.update s.executableTileQueue partition rest
    coreExecutableTileQueue := Function.update s.coreExecutableTileQueue core
      (s.coreExecutableTileQueue core ++ [{ tile with coreId := some core }])
    coreRrId := if tile.coreId = none then s.coreRrId + 1 else s.coreRrId }

/-- The loop of `issue_tile_per_core`: the tiles before the next barrier, each to its core. -/
def issueLoop (coreOf : TileScheduler τ → ScheduledTile τ → Nat) (partition : Nat) :
    List (ScheduledTile τ) → TileScheduler τ → TileScheduler τ
  | [], s => s
  | tile :: rest, s =>
      if tile.status = .bar then s
      else issueLoop coreOf partition rest (s.issueTile partition (coreOf s tile) tile rest)

/-- `issue_tile_per_core()`: over all cores. -/
def issueTilePerCore (s : TileScheduler τ) : TileScheduler τ :=
  s.issueLoop (fun s tile =>
    (match tile.coreId with
      | none => s.coreRrId
      | some core => core + s.nrLayer) % s.numCores) 0 (s.executableTileQueue 0)

/-- `issue_tile_per_core(allowed_cpu, offset, partition_id)`: over the cores of a partition. -/
def issueTilePerCoreOf (allowed : List Nat) (offset partition : Nat) (s : TileScheduler τ) :
    TileScheduler τ :=
  s.issueLoop (fun s tile =>
    allowed.getD ((match tile.coreId with
      | none => offset + s.coreRrId
      | some core => core + s.nrLayer) % allowed.length) 0) partition
    (s.executableTileQueue partition)

/-- `refresh_status`, the model that is finished. -/
def popFinished (s : TileScheduler τ) : TileScheduler τ × List (TileEvent τ) :=
  match s.requestQueue with
  | [] => (s, [])
  | model :: later =>
      if model.checkFinish then ({ s with requestQueue := later }, [.modelFinished model.id])
      else (s, [])

/-- `refresh_status`, the layer that starts. -/
def startLayer (s : TileScheduler τ) : TileScheduler τ × List (TileEvent τ) :=
  match s.requestQueue with
  | [] => (s, [])
  | model :: later =>
      if s.tileQueueEmpty && s.activeLayersMap.isEmpty then
        match model.getExecutableTile with
        | none => (s, [])
        | some (layer, rest) =>
            let queue := s.executableTileQueue 0 ++ rest.getTiles layer
            let s :=
              { s with
                requestQueue := rest.clearTiles layer :: later
                executableTileQueue := Function.update s.executableTileQueue 0 queue
                nrLayer := s.nrLayer + 1 }
            let s := s.setStat layer { totalTiles := queue.length, remainTiles := queue.length }
            (s.issueTilePerCore, [.layerStarted model.id layer])
      else (s, [])

/-- `refresh_status`. -/
def refreshStatus (s : TileScheduler τ) : TileScheduler τ × List (TileEvent τ) :=
  let r := s.popFinished
  let r' := r.1.startLayer
  (r'.1, r.2 ++ r'.2)

/-- `schedule_model`. -/
def scheduleModel (model : OperationGraph τ) (s : TileScheduler τ) :
    TileScheduler τ × List (TileEvent τ) :=
  let r := refreshStatus { s with requestQueue := s.requestQueue ++ [model] }
  (r.1, .scheduled model :: r.2)

/-- `finish_tile`, behind the counters: the layer is finished. -/
def finishLayer (layer : Nat) (s : TileScheduler τ) :
    Option (TileScheduler τ × List (TileEvent τ)) :=
  match s.requestQueue with
  | [] => none
  | model :: later =>
      some (eraseStat layer { s with requestQueue := model.setLayerFinish layer :: later },
        [.layerFinished model.id layer])

/-- `finish_tile`. -/
def finishTile (layer : Nat) (s : TileScheduler τ) :
    Option (TileScheduler τ × List (TileEvent τ)) :=
  match s.layerStat layer with
  | none => none
  | some stat =>
      if stat.remainTiles = 0 then none
      else
        let s := s.setStat layer
          { stat with
            remainTiles := stat.remainTiles - 1
            finishedTiles := stat.finishedTiles + 1 }
        if stat.remainTiles - 1 = 0 then
          (s.finishLayer layer).map fun r =>
            let r' := r.1.refreshStatus
            (r'.1, r.2 ++ r'.2)
        else some s.refreshStatus

/-- `get_tile` at a barrier: taken away when all launched tiles are finished. -/
def passBarrier (core partition : Nat) (tile : ScheduledTile τ) (rest : List (ScheduledTile τ))
    (s : TileScheduler τ) : Option (TileScheduler τ × List (TileEvent τ)) :=
  let stat := (s.layerStat tile.layerId).getD {}
  if stat.launchedTiles = stat.finishedTiles then
    if stat.remainTiles = 0 then none
    else
      let s :=
        { s with executableTileQueue := Function.update s.executableTileQueue partition rest }
      let stat' :=
        { stat with
          launchedTiles := stat.launchedTiles + 1
          finishedTiles := stat.finishedTiles + 1
          remainTiles := stat.remainTiles - 1 }
      if stat.remainTiles - 1 = 0 then
        ((s.setStat tile.layerId { stat' with remainTiles := 1 }).finishTile tile.layerId).map
          fun r => (r.1, .barrier tile :: r.2)
      else
        match s.partitionMap partition with
        | [] => none
        | first :: others =>
            some ((s.setStat tile.layerId stat').issueTilePerCoreOf (first :: others)
              ((first :: others).idxOf core) partition, [.barrier tile])
  else some (s, [])

/-- `get_tile`, with the tile the core gets. -/
def getTile (core : Nat) (s : TileScheduler τ) :
    Option (TileScheduler τ × Option (ScheduledTile τ) × List (TileEvent τ)) :=
  match s.coreExecutableTileQueue core with
  | tile :: rest =>
      let stat := (s.layerStat tile.layerId).getD {}
      some (setStat tile.layerId { stat with launchedTiles := stat.launchedTiles + 1 }
        { s with
          coreExecutableTileQueue := Function.update s.coreExecutableTileQueue core rest },
        some tile, [])
  | [] =>
      match s.executableTileQueue (s.cpuToPartition core) with
      | [] => some (s.refreshStatus.1, none, s.refreshStatus.2)
      | tile :: rest =>
          if tile.status = .bar then
            (s.passBarrier core (s.cpuToPartition core) tile rest).map fun r => (r.1, none, r.2)
          else some (s, none, [])

end TileScheduler

/-! ## 2. The scheduler and the cores -/

/-- The scheduler, the tiles that run on each core, and the ids that were given out. -/
structure TileSystem (τ : Type) where
  sched : TileScheduler τ
  running : Nat → List (ScheduledTile τ) := fun _ => []
  idCounter : Nat := 0

/-- What happens: a model is scheduled, with new ids; a core that has room asks for a tile; a tile
    that runs on a core ends. -/
inductive TileAct (τ : Type) where
  | schedule (model : { g : OperationGraph τ // g.Initialized }) (next : Nat)
  | poll (core : Nat)
  | finish (core index : Nat)

namespace TileSystem

variable {τ : Type}

/-- The core gets a tile, and takes it if it is one to run. -/
def take (core : Nat) (s : TileSystem τ) : Option (TileSystem τ × List (TileEvent τ)) :=
  (s.sched.getTile core).map fun r =>
    match r.2.1 with
    | none => ({ s with sched := r.1 }, r.2.2)
    | some tile =>
        if tile.status = .initialized then
          ({ s with
              sched := r.1
              running := Function.update s.running core (s.running core ++ [tile]) },
            .launched core tile :: r.2.2)
        else ({ s with sched := r.1 }, r.2.2)

/-- A core's turn in `Simulator::cycle` when it has room: it asks unless the scheduler is empty. -/
def poll (core : Nat) (s : TileSystem τ) : Option (TileSystem τ × List (TileEvent τ)) :=
  if s.sched.requestQueue.isEmpty then some (s, []) else s.take core

/-- A tile of a core ends. -/
def finish (core index : Nat) (s : TileSystem τ) : Option (TileSystem τ × List (TileEvent τ)) :=
  match (s.running core)[index]? with
  | none => none
  | some tile =>
      (s.sched.finishTile tile.layerId).map fun r =>
        ({ s with
            sched := r.1
            running := Function.update s.running core ((s.running core).eraseIdx index) },
          .finished core tile :: r.2)

/-- A model has ids that nobody has. -/
def Fresh (s : TileSystem τ) (model : OperationGraph τ) (next : Nat) : Prop :=
  s.idCounter ≤ next ∧ ∀ id ∈ model.ids, s.idCounter ≤ id ∧ id < next

instance (s : TileSystem τ) (model : OperationGraph τ) (next : Nat) :
    Decidable (s.Fresh model next) :=
  inferInstanceAs (Decidable (_ ∧ _))

/-- One act, with what it shows. -/
def exec (s : TileSystem τ) : TileAct τ → Option (TileSystem τ × List (TileEvent τ))
  | .schedule model next =>
      if s.Fresh model.1 next then
        let r := s.sched.scheduleModel model.1
        some ({ s with sched := r.1, idCounter := next }, r.2)
      else none
  | .poll core => if core < s.sched.numCores then s.poll core else none
  | .finish core index => s.finish core index

/-- The system as a machine. -/
def machine : Machine (TileSystem τ) (TileAct τ) (TileEvent τ) where
  step s a := (s.exec a).map Prod.fst
  obs s a _ := ((s.exec a).map Prod.snd).getD []

/-- A step is an act, and shows what the act shows. -/
theorem exec_of_step {s s' : TileSystem τ} {a : TileAct τ} (hs : machine.step s a = some s') :
    ∃ e, s.exec a = some (s', e) ∧ machine.obs s a s' = e := by
  obtain ⟨⟨t, e⟩, he, rfl⟩ := Option.map_eq_some_iff.mp hs
  exact ⟨e, he, by simp only [machine, he]; rfl⟩

end TileSystem

/-- A configuration: there are cores, and the first partition has some of them. -/
structure TileSetup where
  numCores : Nat
  partitions : List (Nat × List Nat)
  cores_pos : 0 < numCores
  some_core : (partitions.lookup 0).getD [] ≠ []
  cores_lt : ∀ core ∈ (partitions.lookup 0).getD [], core < numCores

/-- The constructor of the scheduler; nothing runs. -/
def TileSetup.start (setup : TileSetup) (τ : Type) : TileSystem τ where
  sched := { numCores := setup.numCores, partitions := setup.partitions }

end Ahasd
