/-
  File:      Ahasd/Npu/System.lean
  Subject:   THE CORES, THE SCHEDULER OF TILES AND THE MEMORY SIDE TOGETHER (Simulator.cc, `cycle` and
             `running`).

  A core gets its tiles from the scheduler and gives them back when they are finished; its loads and
  stores go to the memory side, and the answer of a load fills the scratchpad.

  * `System`: the state;
  * `popFinished`, `issue`, `cycle`: a core's part of a core cycle;
  * `op`, `runOps`: the interconnect cycle, in which the cores get their answers;
  * `running`: the condition of the loop;
  * `Setup.run`: the runs; what a run shows are the transfers of requests, the events of the
    scheduler, and what a core does with its buffers for a tile.
-/
import Ahasd.Npu.Core
import Ahasd.Tiles.Scheduler

namespace Ahasd.Npu

open Transition

/-! ## 1. The state -/

/-- The parts of `Simulator`, and `dram_req_size`. -/
structure System where
  memory : Simulator
  tiles : TileSystem TileWork
  cores : Nat → SystolicCore
  dramReqSize : Nat

/-- A tile on a core, with the buffers it was given. -/
structure Placement where
  coreId : Nat
  tile : Tile
  spadId : Nat
  accumSpadId : Nat
  deriving DecidableEq, Repr

/-- What a step shows. -/
inductive Event where
  | transfer (v : Transfer)
  | tile (e : TileEvent TileWork)
  /-- A core empties a buffer, in which these addresses are not valid yet. -/
  | emptied (coreId : Nat) (accum : Bool) (bufferId : Nat) (filling : List Nat)
  /-- A core gives buffers to a tile. -/
  | placed (p : Placement)

namespace System

/-! ## 2. A core's part of a core cycle -/

/-- The tile that a core got. -/
def launchedTile (e : List (TileEvent TileWork)) : Option Tile :=
  e.findSome? fun
    | .launched _ tile => some tile
    | _ => none

/-- What `Core::issue` shows. -/
def issueEvents (coreId : Nat) (tile : Tile) (c : SystolicCore) : List Event :=
  let (spadId, accumSpadId) := c.buffersFor tile
  .emptied coreId false spadId (c.spad.filling spadId) ::
    ((if c.continues tile then []
      else [.emptied coreId true accumSpadId (c.accSpad.filling accumSpadId)]) ++
      [.placed ⟨coreId, tile, spadId, accumSpadId⟩])

/-- A finished tile goes back to the scheduler. -/
def popFinished (coreId : Nat) (s : System) : Option (System × List Event) :=
  match (s.cores coreId).popFinishedTile with
  | none => some (s, [])
  | some (tile, c) =>
      (s.tiles.exec (.finish coreId ((s.tiles.running coreId).idxOf tile))).map fun r =>
        ({ s with tiles := r.1, cores := Function.update s.cores coreId c }, r.2.map .tile)

/-- A core with room asks the scheduler, and takes the tile it gets. -/
def issue (coreId : Nat) (s : System) : Option (System × List Event) :=
  if (s.cores coreId).canIssue then
    (s.tiles.exec (.poll coreId)).map fun r =>
      match launchedTile r.2 with
      | none => ({ s with tiles := r.1 }, r.2.map .tile)
      | some tile =>
          ({ s with
              tiles := r.1
              cores := Function.update s.cores coreId ((s.cores coreId).issue tile) },
            r.2.map .tile ++ issueEvents coreId tile (s.cores coreId))
  else some (s, [])

/-- The memory side does these acts. -/
def memoryRun (as : List MemoryAct) (s : System) : Option (System × List Event) :=
  (Simulator.machine.run as s.memory).map fun r => ({ s with memory := r.1 }, r.2.map .transfer)

/-- The requests of a core. -/
def requestActs (coreId : Nat) (loads : List (SpadSlot × MemoryAccess))
    (stores : List MemoryAccess) : List MemoryAct :=
  loads.map (fun l => MemoryAct.load coreId l.1 l.2) ++
    stores.map fun access => MemoryAct.store coreId access

/-- One cycle of a core. -/
def cycle (coreId : Nat) (clock : Clock) (s : System) : Option (System × List Event) :=
  match (s.cores coreId).cycle s.dramReqSize clock with
  | none => none
  | some (c, loads, stores) =>
      { s with cores := Function.update s.cores coreId c }.memoryRun
        (requestActs coreId loads stores)

/-! ## 3. The interconnect cycle -/

/-- `push_memory_response`: a write is counted, a load fills the scratchpad. -/
def coreResponse (coreId : Nat) (s : System) : Option (System × List Transfer) :=
  let r := s.memory.coreResponse coreId
  match s.memory.coreOutput coreId with
  | [] => some (s, [])
  | response :: _ =>
      if response.write then some ({ s with memory := r.1 }, r.2)
      else
        match (s.memory.cores coreId).loads.find? fun l => l.2 == response.id with
        | none => none
        | some (slot, _) =>
            ((s.cores coreId).fill slot).map fun c =>
              ({ s with memory := r.1, cores := Function.update s.cores coreId c }, r.2)

/-- One part. -/
def op (bp : BackPressure) (s : System) : Op → Option (System × List Transfer)
  | .coreResponse coreId => s.coreResponse coreId
  | o => some ({ s with memory := (s.memory.op bp o).1 }, (s.memory.op bp o).2)

/-- Several parts, one after the other. -/
def runOps (bp : BackPressure) : List Op → System → Option (System × List Transfer)
  | [], s => some (s, [])
  | o :: os, s =>
      match s.op bp o with
      | none => none
      | some (s', e) => (runOps bp os s').map fun r => (r.1, e ++ r.2)

/-! ## 4. `running` -/

/-- `running` of the interconnects and of the DRAM backends: all of them return false. -/
def backendRunning : Bool := false

/-- `Core::running`. -/
def coreRunning (s : System) (coreId : Nat) : Bool :=
  (s.cores coreId).running || (s.memory.cores coreId).waitingWriteReqs != 0

/-- `running`; `other` says whether a model waits to be scheduled or the language scheduler is
    busy. -/
def running (s : System) (other : Bool) : Bool :=
  other || (List.range s.memory.nCores).any s.coreRunning || backendRunning || backendRunning ||
    !s.tiles.sched.requestQueue.isEmpty ||
    (s.memory.pim.active && (List.range s.memory.nMemories).any fun memId =>
      let ch := s.memory.channels memId
      !ch.pimHoldQueue.isEmpty || !ch.pimBypassQueue.isEmpty ||
        !ch.pimSsrcBypassQueue.isEmpty || !ch.pimCmdOooQueue.isEmpty)

end System

/-! ## 5. Runs -/

/-- What happens, in any order. -/
inductive Act where
  | schedule (model : { g : OperationGraph TileWork // g.Initialized }) (next : Nat)
  | popFinished (coreId : Nat)
  | issue (coreId : Nat)
  | cycle (coreId : Nat) (clock : Clock)
  | icntCycle (bp : BackPressure)
  /-- the rest of the memory side -/
  | memory (a : MemoryAct)

namespace System

/-- One act, with what it shows. The cores make the requests, and they are there in the interconnect
    cycle. -/
def exec (s : System) : Act → Option (System × List Event)
  | .schedule model next =>
      (s.tiles.exec (.schedule model next)).map fun r => ({ s with tiles := r.1 }, r.2.map .tile)
  | .popFinished coreId => s.popFinished coreId
  | .issue coreId => s.issue coreId
  | .cycle coreId clock => s.cycle coreId clock
  | .icntCycle bp => (s.runOps bp s.memory.ops).map fun r => (r.1, r.2.map .transfer)
  | .memory (.load _ _ _) | .memory (.store _ _) | .memory (.icntCycle _) => none
  | .memory a => s.memoryRun [a]

/-- The system as a machine. -/
def machine : Machine System Act Event where
  step s a := (s.exec a).map Prod.fst
  obs s a _ := ((s.exec a).map Prod.snd).getD []

/-- A step is an act, and shows what the act shows. -/
theorem exec_of_step {s s' : System} {a : Act} (hs : machine.step s a = some s') :
    ∃ e, s.exec a = some (s', e) ∧ machine.obs s a s' = e := by
  obtain ⟨⟨t, e⟩, he, rfl⟩ := Option.map_eq_some_iff.mp hs
  exact ⟨e, he, by simp only [machine, he]; rfl⟩

end System

/-- A core's configuration, sizes in KB, and what is in its ids of the current layer, which are not
    initialized. -/
structure CoreConfig where
  coreHeight : Nat
  spadSize : Nat
  accumSpadSize : Nat
  layerId : Nat := 0
  fusedOpId : Nat := 0

/-- A configuration. -/
structure Setup where
  memory : MemorySetup
  tiles : TileSetup
  coreConfig : Nat → CoreConfig
  dramReqSize : Nat
  same_cores : tiles.numCores = memory.nCores

namespace Setup

/-- The constructor of a core. -/
def core (c : Setup) (coreId : Nat) : SystolicCore :=
  let config := c.coreConfig coreId
  { coreHeight := config.coreHeight
    spad := { size := config.spadSize * 1024 / 2, dataWidth := c.dramReqSize }
    accSpad := { size := config.accumSpadSize * 1024 / 2, dataWidth := c.dramReqSize }
    currentLayerId := config.layerId
    currentFusedOpId := config.fusedOpId }

/-- The constructor of the simulator. -/
def start (c : Setup) : System where
  memory := c.memory.start
  tiles := c.tiles.start TileWork
  cores := c.core
  dramReqSize := c.dramReqSize

/-- The run of a list of acts: the state reached and what it shows. -/
def run (c : Setup) (as : List Act) : Option (System × List Event) :=
  System.machine.run as c.start

end Setup

end Ahasd.Npu
