/-
  File:      Ahasd/Npu/Requests.lean
  Subject:   EVERY REQUEST IS IN ONE PLACE, AND IS WAITED FOR.

  * `running_of_contents`: while a request is somewhere, the simulator runs: a core counts the write,
    or has the reader of the load, or the scheduler has it;
  * **`request_in_one_place`**: the requests are conserved in every run, and are waited for in every
    orderly one;
  * `running_ends_early`: a bias that is still in DRAM when the simulation ends.
-/
import Ahasd.Npu.Awaited

namespace Ahasd.Npu

open Transition

/-! ## 1. The simulator runs while there are requests -/

section Running

variable {s : System} {k : List Transfer} {h : List Event} {access : MemoryAccess} {p : Place}

theorem running_of_core (hcore : access.coreId < s.memory.nCores)
    (hrun : s.coreRunning access.coreId = true) (other : Bool) : s.running other = true := by
  have hany : (List.range s.memory.nCores).any s.coreRunning = true :=
    List.any_eq_true.mpr ⟨access.coreId, List.mem_range.mpr hcore, hrun⟩
  rw [System.running, hany]
  simp

theorem running_of_queue (hq : s.tiles.sched.requestQueue ≠ []) (other : Bool) :
    s.running other = true := by
  rw [System.running, List.isEmpty_eq_false_iff.mpr hq]
  simp

/-- A write is counted. -/
theorem running_of_write (ha : s.memory.Account k) (hmem : access ∈ s.memory.contents p)
    (hwrite : access.write = true) (other : Bool) : s.running other = true := by
  refine running_of_core (ha.shape p access hmem).lt ?_ other
  rw [System.coreRunning, Bool.or_eq_true, bne_iff_ne]
  exact .inr ((ha.awaited hmem).1 hwrite)

/-- **While a request is somewhere, the simulator runs.** -/
theorem running_of_contents (ha : s.memory.Account k) (hs : Serves (Later h) s)
    (hahead : ∀ tile, Ahead (tileEvents h) tile → s.tiles.sched.requestQueue ≠ [])
    (hmem : access ∈ s.memory.contents p) (other : Bool) : s.running other = true := by
  cases hwrite : access.write with
  | true => exact running_of_write ha hmem hwrite other
  | false =>
      obtain ⟨slot, hslot⟩ := (ha.awaited hmem).2 hwrite
      rcases (hs access.coreId).loaded slot (List.mem_map_of_mem hslot) with
        ⟨q, hq, _⟩ | ⟨_, tile, htile, _⟩
      · refine running_of_core (ha.shape p access hmem).lt ?_ other
        obtain ⟨t, ht, _⟩ := List.mem_map.mp hq
        have hne : (s.cores access.coreId).tiles.isEmpty = false :=
          List.isEmpty_eq_false_iff.mpr (List.ne_nil_of_mem ht)
        rw [System.coreRunning, SystolicCore.running, hne]
        rfl
      · exact running_of_queue (hahead tile htile) other

end Running

/-! ## 2. A matrix multiplication with a bias -/

instance (inst : Instruction) : Decidable inst.Counted :=
  inferInstanceAs (Decidable (_ ∧ _))

instance decidableAlong (P : Instruction → List Instruction → Prop)
    [hP : ∀ inst after, Decidable (P inst after)] : ∀ insts, Decidable (Along P insts)
  | [] => .isTrue trivial
  | inst :: after =>
      have := decidableAlong P after
      inferInstanceAs (Decidable (P inst after ∧ Along P after))

instance (a b : Tile) : Decidable (SameAccumulation a b) := inferInstanceAs (Decidable (_ ∧ _))

instance (tiles : List Tile) (tile : Tile) : Decidable (LoadsRead tiles tile) :=
  inferInstanceAs (Decidable (_ ∧ _))

instance (model : OperationGraph TileWork) : Decidable (ModelLoadsRead model) :=
  inferInstanceAs (Decidable (∀ op ∈ model.operationMap, ∀ tile ∈ op.tiles, _))

instance (before after : Placement) : Decidable (Continues before after) :=
  inferInstanceAs (Decidable (_ → _))

instance : (v : Event) → Decidable v.Clean
  | .emptied _ _ _ filling => inferInstanceAs (Decidable (filling = []))
  | .transfer _ | .tile _ | .placed _ => .isTrue trivial

/-- The condition, part by part. -/
theorem orderly_iff {h : List Event} : Orderly h ↔
    (∀ model ∈ scheduled (tileEvents h), ModelLoadsRead model) ∧
      (placements h).Pairwise Continues ∧ ∀ v ∈ h, v.Clean :=
  ⟨fun ho => ⟨ho.loads, ho.continues, ho.clean⟩, fun ho => ⟨ho.1, ho.2.1, ho.2.2⟩⟩

instance (h : List Event) : Decidable (Orderly h) := decidable_of_iff' _ orderly_iff

/-- The tile of an output block `m` and a part `c` of the sum, of a product of 1 × 8 and 8 × 16 with
    a bias, in blocks of 1 × 4 × 8. Each load is one request. -/
def gemmTile (m c : Nat) : Tile where
  status := .initialized
  layerId := 5
  coreId := some 0
  work :=
    { q := 1
      p := 1
      m := m
      c := c
      accum := c != 0
      instructions :=
        (if c = 0 then
          [{ opcode := .movin, destAddr := accumSpadBase, size := 1, srcAddrs := [1024] }]
        else []) ++
        [{ opcode := .movin, destAddr := spadBase + 4, size := 1, srcAddrs := [512 + 64 * m] },
          { opcode := .movin, destAddr := spadBase, size := 1, srcAddrs := [0] },
          { opcode := .gemmPreload, destAddr := accumSpadBase, size := 1,
            srcAddrs := [spadBase, spadBase + 4] }] ++
        (if c = 1 then
          [{ opcode := .movout, destAddr := accumSpadBase, size := 1, srcAddrs := [2048] }]
        else []) }

/-- The model of this operation. -/
def gemmModel : OperationGraph TileWork :=
  OperationGraph.initExecutable
    { id := 3
      operationMap :=
        [{ id := 5, inputs := [0], outputs := [1],
           tiles := [gemmTile 0 0, gemmTile 0 1, gemmTile 1 0, gemmTile 1 1] }]
      tensorMap := fun t => if t = 0 then ⟨true, [5]⟩ else ⟨false, []⟩ }

theorem gemmModel_initialized : gemmModel.Initialized where
  nodup := by decide
  children t id := by
    rcases t with _ | _ | t <;>
      simp [gemmModel, OperationGraph.initExecutable, OperationGraph.net, @eq_comm _ id]
  ordered :=
    { single := by
        simp [gemmModel, OperationGraph.initExecutable, OperationGraph.net, OperationGraph.ids]
      made := by
        simp [gemmModel, OperationGraph.initExecutable, OperationGraph.net, OperationGraph.ids]
      sourced := by
        simp [gemmModel, OperationGraph.initExecutable, OperationGraph.net, OperationGraph.ids]
      ranked := ⟨id, by
        simp [gemmModel, OperationGraph.initExecutable, OperationGraph.net,
          OperationGraph.ids]⟩ }
  unfinished := by simp [gemmModel, OperationGraph.initExecutable]
  tiles := by simp [gemmModel, OperationGraph.initExecutable, gemmTile]
  executable := by decide

/-- One core and one channel. -/
def oneCore : Setup where
  memory :=
    { config :=
        { coreFreq := 1000
          dramFreq := 800
          dramChannels := 1
          dramSize := 0
          precision := 1 }
      nCores := 1
      channelId := fun _ => 0 }
  tiles :=
    { numCores := 1
      partitions := [(0, [0])]
      cores_pos := by decide
      some_core := by decide
      cores_lt := by decide }
  coreConfig _ := { coreHeight := 8, spadSize := 64, accumSpadSize := 64 }
  dramReqSize := 64
  same_cores := rfl

/-- A core cycle and an interconnect cycle, and then what the memory does. -/
def turn (after : List MemoryAct) : List Act :=
  [.popFinished 0, .issue 0, .cycle 0 {}, .icntCycle {}] ++ after.map .memory

/-- A request arrives at the channel. -/
def toChannel : MemoryAct := .deliver (.memory 0) 0

/-- An answer arrives at the core. -/
def toCore : MemoryAct := .deliver (.core 0) 0

/-- The model is scheduled; its first two tiles run. Of the loads of the second tile the weight stays
    in DRAM, so the first tile ends before it. -/
def firstTiles : List Act :=
  [.schedule ⟨gemmModel, gemmModel_initialized⟩ 10] ++
    [[], [toChannel], [toChannel, .answer 0 0], [toChannel, .answer 0 0, toCore],
      [toChannel, .answer 0 0, toCore], [toChannel, toCore], [.answer 0 1], [toCore], [],
      []].flatMap turn

/-- The third tile, of the next block, runs, and ends before its bias has come. The fourth tile goes
    on with it, but in the buffer of the second one, which still runs. -/
def lastTiles : List Act :=
  [[], [toChannel], [toChannel], [toChannel, .answer 0 2], [.answer 0 2, toCore], [toCore], [], [],
    [], [.answer 0 0], [toCore], [toChannel], [toChannel, .answer 0 1], [.answer 0 1, toCore],
    [toCore], [toChannel], [.answer 0 1], [toCore], [], [toChannel], [.answer 0 1], [toCore],
    []].flatMap turn

/-! ## 3. The requests of a run -/

/-- **Every request that reached a memory node is in exactly one place until its core has the
    answer**, enters DRAM at most once and is sent back once: in every run, between the acts and
    after any parts of the interconnect cycle that follows. **And while any request is somewhere, the
    simulator runs on**, in every orderly run. -/
theorem request_in_one_place (c : Setup) {as : List Act} {s : System} {h : List Event}
    (hr : c.run as = some (s, h)) (bp : BackPressure) (os : List Op) {s' : System}
    {e : List Transfer} (hops : s.runOps bp os = some (s', e)) :
    s'.memory.Conserved (transfers h ++ e) ∧
      (Orderly h → ∀ p, s'.memory.contents p ≠ [] → ∀ other, s'.running other = true) := by
  have hb := c.books (exec_of_run hr)
  obtain ⟨hmemory, htiles⟩ := System.memory_of_runOps hops
  have hchain := Simulator.runOps_chain bp os hb.account.shape
  rw [hmemory] at hchain
  have ha := Simulator.chain_account hchain hb.account
  refine ⟨ha.conserved, fun ho p hp other => ?_⟩
  obtain ⟨access, hmem⟩ := List.exists_mem_of_ne_nil _ hp
  have hs := serves_runOps (c.served (exec_of_run hr) ho) hb.account hops
  exact running_of_contents ha hs (fun tile htile => htiles ▸ hb.queue_of_ahead htile) hmem other

/-- At the end of `firstTiles` a weight is in DRAM, and the run was orderly. -/
theorem request_in_one_place_sample : ∃ s h, oneCore.run firstTiles = some (s, h) ∧ Orderly h ∧
    s.memory.contents (.dram 0) ≠ [] ∧ s.memory.Conserved (transfers h ++ []) ∧
      s.running false = true := by
  obtain ⟨⟨s, h⟩, hr, hat⟩ := (Option.any_eq_true _ _).mp
    (show (oneCore.run firstTiles).any (fun r =>
      decide (Orderly r.2) && !(r.1.memory.contents (.dram 0)).isEmpty) = true by decide +kernel)
  obtain ⟨ho, hdram⟩ := Bool.and_eq_true_iff.mp hat
  have ho : Orderly h := of_decide_eq_true ho
  have hdram : s.memory.contents (.dram 0) ≠ [] := by simpa using hdram
  obtain ⟨hconserved, hrunning⟩ := request_in_one_place oneCore hr {} [] rfl
  exact ⟨s, h, hr, ho, hdram, hconserved, hrunning ho (.dram 0) hdram false⟩

/-- **The simulation ends with a bias in DRAM**: its tile is finished, and so is the tile that was to
    read it. -/
theorem running_ends_early : ∃ s h, oneCore.run (firstTiles ++ lastTiles) = some (s, h) ∧
    s.memory.contents (.dram 0) ≠ [] ∧ s.running false = false := by
  obtain ⟨⟨s, h⟩, hr, hat⟩ := (Option.any_eq_true _ _).mp
    (show (oneCore.run (firstTiles ++ lastTiles)).any (fun r =>
      !(r.1.memory.contents (.dram 0)).isEmpty && !r.1.running false) = true by decide +kernel)
  obtain ⟨hdram, hrunning⟩ := Bool.and_eq_true_iff.mp hat
  exact ⟨s, h, hr, by simpa using hdram, by simpa using hrunning⟩

end Ahasd.Npu
