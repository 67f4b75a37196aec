/-
  File:      Ahasd/Npu/Core.lean
  Subject:   THE CORES (Core.cc, SystolicWS.cc and Sram.cc).

  A core runs up to two tiles. A tile is a program: its instructions are issued in order into the
  queues of the loads, the stores and the computations, when what they read is in a scratchpad. Of
  each scratchpad there are two buffers; a tile has one of each, which is emptied for it, but that a
  tile that accumulates goes on with what is in an accumulator buffer.

  `none` stands for an assertion that fails, for `exit`, and for a null pointer that is read. When a
  pipeline is done with its first instruction is asked of `Clock`: the latencies of the instructions
  are left open.

  * `Instruction`, `TileWork`: the programs;
  * `Sram`: a scratchpad, as a table of the addresses that were allocated;
  * `SystolicCore`: the state of a core;
  * `issue`, `popFinishedTile`: what `Simulator::cycle` calls;
  * `cycle`: one cycle of a core, with the requests it makes.
-/
import Ahasd.Lib.OrderedMap
import Ahasd.Simulator.MemorySide
import Ahasd.Tiles.OperationGraph

namespace Ahasd.Npu

/-! ## 1. Programs -/

/-- `SPAD_BASE` -/
def spadBase : Nat := 0x10000000

/-- `ACCUM_SPAD_BASE` -/
def accumSpadBase : Nat := 0x20000000

/-- `Opcode`. -/
inductive Opcode where
  | movin
  | movout
  | movoutPool
  | gemmPreload
  | gemm
  | gemmWrite
  | comp
  | im2col
  | softmax
  | layernorm
  | add
  | mul
  | mac
  | div
  | addtree
  | exp
  | gelu
  | swish
  | bar
  deriving DecidableEq, Repr

/-- `Instruction`, the fields that say what the cores do with it. -/
structure Instruction where
  opcode : Opcode
  destAddr : Nat
  size : Nat
  srcAddrs : List Nat
  baseAddr : Nat := 0
  requestId : Nat := invalidRequestId
  requestIdentityTagged : Bool := false
  specTaskType : Nat := 0
  srcFromAccum : Bool := false
  zeroInit : Bool := false
  deriving DecidableEq, Repr

/-- An address in one of the scratchpads. -/
structure SpadAddress where
  accum : Bool
  address : Nat
  deriving DecidableEq, Repr

/-- The slot of an address, of an instruction with these buffers. -/
def SpadAddress.slot (spadId accumSpadId : Nat) (a : SpadAddress) : SpadSlot :=
  ⟨a.accum, if a.accum then accumSpadId else spadId, a.address⟩

/-- The destination of an instruction; of a store, what it reads. -/
def Instruction.dest (inst : Instruction) : SpadAddress :=
  ⟨decide (accumSpadBase ≤ inst.destAddr), inst.destAddr⟩

/-- What a computation reads. -/
def Instruction.sources (inst : Instruction) : List SpadAddress :=
  inst.srcAddrs.map fun addr => ⟨inst.srcFromAccum && decide (accumSpadBase ≤ addr), addr⟩

/-- `Tile`, what the scheduler does not read: the place of its output in the operation, whether it
    accumulates, whether there is nothing to do, and the program. -/
structure TileWork where
  fusedOpId : Nat := 0
  batch : Nat := 0
  q : Nat := 0
  p : Nat := 0
  m : Nat := 0
  c : Nat := 0
  accum : Bool := false
  skip : Bool := false
  instructions : List Instruction
  deriving DecidableEq, Repr

/-- `Tile`. -/
abbrev Tile : Type := ScheduledTile TileWork

/-! ## 2. Scratchpads -/

/-- `SramEntry`. -/
structure SramEntry where
  valid : Bool
  size : Nat
  remainReqCount : Nat
  deriving DecidableEq, Repr

/-- `Sram`: of each buffer the entries by address, and how much is allocated. -/
structure Sram where
  size : Nat
  dataWidth : Nat
  currentSize : Nat → Nat := fun _ => 0
  cacheTable : Nat → Std.TreeMap Nat SramEntry compare := fun _ => ∅

namespace Sram

/-- `check_hit`. -/
def checkHit (address bufferId : Nat) (s : Sram) : Bool :=
  (s.cacheTable bufferId)[address]?.any SramEntry.valid

/-- `check_remain`. -/
def checkRemain (size bufferId : Nat) (s : Sram) : Bool :=
  decide ((s.currentSize bufferId + size) * s.dataWidth ≤ s.size)

/-- `check_allocated`. -/
def checkAllocated (address bufferId : Nat) (s : Sram) : Bool :=
  (s.cacheTable bufferId)[address]?.isSome

/-- `flush`. -/
def flush (bufferId : Nat) (s : Sram) : Sram :=
  { s with
    currentSize := Function.update s.currentSize bufferId 0
    cacheTable := Function.update s.cacheTable bufferId ∅ }

/-- `prefetch`: a new entry, which waits for `count` fills. -/
def prefetch (address bufferId allocatedSize count : Nat) (s : Sram) : Option Sram :=
  if s.checkAllocated address bufferId then none
  else if s.checkRemain allocatedSize bufferId then
    some
      { s with
        currentSize :=
          Function.update s.currentSize bufferId (s.currentSize bufferId + allocatedSize)
        cacheTable := Function.update s.cacheTable bufferId
          ((s.cacheTable bufferId).insert address
            { valid := false, size := allocatedSize, remainReqCount := count }) }
  else none

/-- An entry is replaced. -/
def setEntry (address bufferId : Nat) (entry : SramEntry) (s : Sram) : Sram :=
  { s with
    cacheTable := Function.update s.cacheTable bufferId
      ((s.cacheTable bufferId).insert address entry) }

/-- `fill`: one fill less; with the last one the entry is valid. -/
def fill (address bufferId : Nat) (s : Sram) : Option Sram :=
  match (s.cacheTable bufferId)[address]? with
  | none => none
  | some entry =>
      if 0 < entry.remainReqCount ∧ entry.valid = false then
        some (s.setEntry address bufferId
          { entry with
            remainReqCount := entry.remainReqCount - 1
            valid := entry.remainReqCount - 1 == 0 })
      else none

/-- `count_up`: one fill more. -/
def countUp (address bufferId : Nat) (s : Sram) : Option Sram :=
  match (s.cacheTable bufferId)[address]? with
  | none => none
  | some entry =>
      some (s.setEntry address bufferId
        { entry with remainReqCount := entry.remainReqCount + 1, valid := false })

/-- The addresses of a buffer that are not valid yet. -/
def filling (bufferId : Nat) (s : Sram) : List Nat :=
  ((s.cacheTable bufferId).toList.filter fun e => !e.2.valid).map Prod.fst

end Sram

/-! ## 3. The state of a core -/

/-- An instruction that was issued: it knows the buffers of its tile, and the last one its tile
    (`last_inst`, `my_tile`). -/
structure Issued where
  inst : Instruction
  spadId : Nat
  accumSpadId : Nat
  myTile : Option Nat
  deriving DecidableEq, Repr

/-- Where the destination is. -/
def Issued.dest (front : Issued) : SpadSlot :=
  front.inst.dest.slot front.spadId front.accumSpadId

/-- Where the sources are. -/
def Issued.sources (front : Issued) : List SpadSlot :=
  front.inst.sources.map (SpadAddress.slot front.spadId front.accumSpadId)

/-- A tile in `_tiles`, with what is left of its program. Its pointer is a number. -/
structure RunningTile where
  key : Nat
  tile : Tile
  instructions : List Instruction
  spadId : Nat
  accumSpadId : Nat
  instFinished : Bool := false
  deriving DecidableEq, Repr

/-- The first instruction of a tile, as it is issued. -/
def RunningTile.issued (t : RunningTile) (inst : Instruction) (rest : List Instruction) : Issued where
  inst := inst
  spadId := t.spadId
  accumSpadId := t.accumSpadId
  myTile := if rest.isEmpty then some t.key else none

/-- `SystolicWS`. The ids of the current layer are not initialized. In the queue of the stores, `none`
    is the null pointer of an instruction that was moved away. -/
structure SystolicCore where
  coreHeight : Nat
  spad : Sram
  accSpad : Sram
  tiles : List RunningTile := []
  finishedTiles : List Tile := []
  computePipeline : List Issued := []
  vectorPipeline : List Issued := []
  ldInstQueue : List Issued := []
  stInstQueue : List (Option Issued) := []
  exInstQueue : List Issued := []
  tileRr : Nat := 0
  currentLayerId : Nat
  currentFusedOpId : Nat
  issuedTiles : Nat := 0

/-- Which pipelines are done with their first instruction: its `finish_cycle` has come. -/
structure Clock where
  compute : Bool := true
  vector : Bool := true
  deriving DecidableEq, Repr

namespace SystolicCore

/-- The scratchpad. -/
def sram (accum : Bool) (c : SystolicCore) : Sram := if accum then c.accSpad else c.spad

/-- The scratchpad is changed. -/
def setSram (accum : Bool) (s : Sram) (c : SystolicCore) : SystolicCore :=
  { c with spad := if accum then c.spad else s, accSpad := if accum then s else c.accSpad }

def checkHit (slot : SpadSlot) (c : SystolicCore) : Bool :=
  (c.sram slot.accum).checkHit slot.address slot.bufferId

def checkAllocated (slot : SpadSlot) (c : SystolicCore) : Bool :=
  (c.sram slot.accum).checkAllocated slot.address slot.bufferId

def fill (slot : SpadSlot) (c : SystolicCore) : Option SystolicCore :=
  ((c.sram slot.accum).fill slot.address slot.bufferId).map fun s => c.setSram slot.accum s

def countUp (slot : SpadSlot) (c : SystolicCore) : Option SystolicCore :=
  ((c.sram slot.accum).countUp slot.address slot.bufferId).map fun s => c.setSram slot.accum s

def prefetch (slot : SpadSlot) (allocatedSize count : Nat) (c : SystolicCore) :
    Option SystolicCore :=
  ((c.sram slot.accum).prefetch slot.address slot.bufferId allocatedSize count).map
    fun s => c.setSram slot.accum s

/-- `running`, but for `_waiting_write_reqs`. -/
def running (c : SystolicCore) : Bool :=
  !c.tiles.isEmpty || !c.computePipeline.isEmpty || !c.vectorPipeline.isEmpty ||
    !c.ldInstQueue.isEmpty || !c.stInstQueue.isEmpty || !c.exInstQueue.isEmpty

/-! ## 4. Tiles come and go -/

/-- `can_issue`. -/
def canIssue (c : SystolicCore) : Bool := decide (c.tiles.length < 2)

/-- The tile accumulates what the core's current layer has in the accumulator scratchpad. -/
def continues (tile : Tile) (c : SystolicCore) : Bool :=
  tile.work.accum && c.currentLayerId == tile.layerId && c.currentFusedOpId == tile.work.fusedOpId

/-- The buffers of the tile that runs, if it is the only one; else 0. -/
def currentBuffers (c : SystolicCore) : Nat × Nat :=
  match c.tiles with
  | [first] => (first.spadId, first.accumSpadId)
  | _ => (0, 0)

/-- The buffers that `issue` gives to a tile. -/
def buffersFor (tile : Tile) (c : SystolicCore) : Nat × Nat :=
  ((c.currentBuffers.1 + 1) % 2,
    if c.continues tile then c.currentBuffers.2 else (c.currentBuffers.2 + 1) % 2)

/-- `issue`. -/
def issue (tile : Tile) (c : SystolicCore) : SystolicCore :=
  let (spadId, accumSpadId) := c.buffersFor tile
  let c' :=
    { c with
      spad := c.spad.flush spadId
      accSpad := if c.continues tile then c.accSpad else c.accSpad.flush accumSpadId
      currentLayerId := tile.layerId
      currentFusedOpId := tile.work.fusedOpId
      issuedTiles := c.issuedTiles + 1 }
  if tile.work.skip then { c' with finishedTiles := c'.finishedTiles ++ [tile] }
  else
    { c' with
      tiles := c'.tiles ++
        [{ key := c.issuedTiles
           tile := tile
           instructions := tile.work.instructions
           spadId := spadId
           accumSpadId := accumSpadId }] }

/-- `pop_finished_tile`. -/
def popFinishedTile (c : SystolicCore) : Option (Tile × SystolicCore) :=
  match c.finishedTiles with
  | [] => none
  | tile :: rest => some (tile, { c with finishedTiles := rest })

/-! ## 5. One cycle -/

/-- `inst->my_tile->inst_finished = true`, of a last instruction. -/
def setInstFinished (myTile : Option Nat) (c : SystolicCore) : SystolicCore :=
  { c with
    tiles := c.tiles.map fun t =>
      if myTile = some t.key then { t with instFinished := true } else t }

/-- `finish_compute_pipeline`. -/
def finishComputePipeline (clock : Clock) (c : SystolicCore) : Option SystolicCore :=
  match c.computePipeline with
  | [] => some c
  | front :: rest =>
      if clock.compute then
        (c.fill front.dest).map fun c =>
          setInstFinished front.myTile { c with computePipeline := rest }
      else some c

/-- `finish_vector_pipeline`. -/
def finishVectorPipeline (clock : Clock) (c : SystolicCore) : Option SystolicCore :=
  match c.vectorPipeline with
  | [] => some c
  | front :: rest =>
      if clock.vector then
        (c.fill front.dest).map fun c =>
          setInstFinished front.myTile { c with vectorPipeline := rest }
      else some c

/-- The requests of an instruction: one for each address. -/
def requests (dramReqSize : Nat) (write : Bool) (inst : Instruction) : List MemoryAccess :=
  inst.srcAddrs.map fun addr =>
    { id := 0
      dramAddress := addr + inst.baseAddr
      size := dramReqSize
      write := write
      request := true
      coreId := 0
      requestId := inst.requestId
      requestIdentityTagged := inst.requestIdentityTagged
      specTaskType := inst.specTaskType }

/-- `handle_ld_inst_queue`, with the requests it makes. -/
def handleLdInstQueue (dramReqSize : Nat) (c : SystolicCore) :
    Option (SystolicCore × List (SpadSlot × MemoryAccess)) :=
  match c.ldInstQueue with
  | [] => some (c, [])
  | front :: rest =>
      (c.prefetch front.dest front.inst.size front.inst.size).map fun c =>
        ({ c with ldInstQueue := rest },
          (requests dramReqSize false front.inst).map fun access => (front.dest, access))

/-- The instruction is for the systolic array. -/
def isGemm (inst : Instruction) : Bool :=
  inst.opcode == .gemm || inst.opcode == .gemmPreload

/-- `can_issue_compute`. -/
def canIssueCompute (front : Issued) (c : SystolicCore) : Bool :=
  front.sources.all (fun slot => c.checkHit slot) &&
    if isGemm front.inst then decide (c.computePipeline.length < c.coreHeight)
    else c.vectorPipeline.isEmpty

/-- The destination of a computation is allocated, or waits for one fill more. -/
def allocate (front : Issued) (c : SystolicCore) : Option SystolicCore :=
  if c.checkAllocated front.dest then c.countUp front.dest
  else c.prefetch front.dest front.inst.size (if front.inst.zeroInit then front.inst.size else 1)

/-- The part of `SystolicWS::cycle` on the queue of the computations. -/
def execute (c : SystolicCore) : Option SystolicCore :=
  match c.exInstQueue with
  | [] => some c
  | front :: rest =>
      if c.canIssueCompute front then
        (c.allocate front).map fun c =>
          if isGemm front.inst then
            { c with computePipeline := c.computePipeline ++ [front], exInstQueue := rest }
          else { c with vectorPipeline := c.vectorPipeline ++ [front], exInstQueue := rest }
      else some c

/-- `handle_st_inst_queue`, with the requests it makes. A store that cannot go out is moved away all
    the same, and the next cycle finds the null pointer. -/
def handleStInstQueue (dramReqSize : Nat) (c : SystolicCore) :
    Option (SystolicCore × List MemoryAccess) :=
  match c.stInstQueue with
  | [] => some (c, [])
  | none :: _ => none
  | some front :: rest =>
      if c.checkHit front.dest then
        some (setInstFinished front.myTile { c with stInstQueue := rest },
          requests dramReqSize true front.inst)
      else some ({ c with stInstQueue := none :: rest }, [])

/-- The core with the first instruction of a tile in its queue; the tile has it no longer. -/
def enqueued (i : Nat) (c : SystolicCore) : SystolicCore :=
  { c with
    tiles := c.tiles.modify i fun t => { t with instructions := t.instructions.tail }
    tileRr := i }

/-- The turn of a tile in the loop of `Core::cycle`, with whether an instruction was issued. -/
def issueFirst (i : Nat) (t : RunningTile) (c : SystolicCore) : Option (SystolicCore × Bool) :=
  match t.instructions with
  | [] => some (c, false)
  | inst :: rest =>
      let front := t.issued inst rest
      match inst.opcode with
      | .movin =>
          if !c.checkAllocated front.dest &&
              (c.sram front.dest.accum).checkRemain inst.size front.dest.bufferId then
            some ({ c with ldInstQueue := c.ldInstQueue ++ [front] }.enqueued i, true)
          else none
      | .movout | .movoutPool =>
          if c.checkHit front.dest then
            some ({ c with stInstQueue := c.stInstQueue ++ [some front] }.enqueued i, true)
          else some (c, false)
      | _ =>
          if c.exInstQueue.isEmpty && c.canIssueCompute front then
            some ({ c with exInstQueue := c.exInstQueue ++ [front] }.enqueued i, true)
          else some (c, false)

/-- The loop of `Core::cycle` over the tiles: one instruction is issued. -/
def issueLoop : List Nat → SystolicCore → Option SystolicCore
  | [], c => some c
  | i :: is, c =>
      match c.tiles[i]? with
      | none => none
      | some t =>
          match c.issueFirst i t with
          | none => none
          | some (c', true) => some c'
          | some (_, false) => issueLoop is c

/-- The tiles from `tile_rr` on. -/
def issueInst (c : SystolicCore) : Option SystolicCore :=
  c.issueLoop ((List.range c.tiles.length).map fun k => (k + c.tileRr) % c.tiles.length)

/-- The end of `Core::cycle`: the first tile whose instructions are all issued and whose last
    instruction is done, is finished. -/
def finishTile (c : SystolicCore) : SystolicCore :=
  match c.tiles.find? fun t => t.instructions.isEmpty && t.instFinished with
  | none => c
  | some t =>
      { c with
        tiles := c.tiles.erase t
        finishedTiles := c.finishedTiles ++ [t.tile] }

/-- `cycle`, with the loads and the stores it makes. -/
def cycle (dramReqSize : Nat) (clock : Clock) (c : SystolicCore) :
    Option (SystolicCore × List (SpadSlot × MemoryAccess) × List MemoryAccess) :=
  (c.finishComputePipeline clock).bind fun c =>
    (c.finishVectorPipeline clock).bind fun c =>
      (c.handleLdInstQueue dramReqSize).bind fun ld =>
        ld.1.execute.bind fun c =>
          (c.handleStInstQueue dramReqSize).bind fun st =>
            st.1.issueInst.map fun c => (c.finishTile, ld.2, st.2)

end SystolicCore

end Ahasd.Npu
