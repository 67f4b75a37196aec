/-
  File:      Ahasd/Tiles/Runs.lean
  Subject:   WHAT HOLDS OF EVERY RUN OF THE SCHEDULER OF TILES.

  * **`never_fails`**: no assertion fails, whatever the cores do;
  * **`layers_in_order`**: the models have their turn in the order they came, one at a time; of a
    model all layers, one at a time, each when what it reads is there;
  * **`tiles_once`**: of every layer that is finished each tile was done once, and no tile runs but
    while its layer does;
  * **`barrier_iff`**: a barrier waits for the tiles that were launched, and so for all tiles before
    it if and only if none of these is still in the queue of a core.
-/
import Ahasd.Tiles.Course

namespace Ahasd

open Transition Queues TileSystem

variable {τ : Type} {setup : TileSetup} {s s' : TileSystem τ} {h e : List (TileEvent τ)}

/-! ## 1. The invariant over a run -/

theorem TileSetup.start_inv (setup : TileSetup) : Inv setup (setup.start τ) [] where
  kept :=
    { numCores := rfl
      partitions := rfl
      elsewhere := fun _ _ => rfl
      outside := fun _ _ => rfl
      issued := by simp [queued, gather, TileSetup.start]
      initialized := by simp [scheduled]
      given := by simp [scheduled]
      distinct := List.nodup_nil
      cores := fun _ => .refl []
      account := by simp [scheduled]
      untouched := fun _ _ => rfl
      during := by simp
      still := by simp }
  course := .inl ⟨[], [], .nil, rfl, rfl, rfl, rfl, rfl, rfl, by
    simp [contents, queued, runs, gather, TileSetup.start]⟩

/-- An act keeps the invariant. -/
theorem TileSystem.Inv.exec (hi : Inv setup s h) {a : TileAct τ} (he : s.exec a = some (s', e)) :
    Inv setup s' (h ++ e) :=
  Chain.preserves (P := fun s h => Inv setup s h) (fun _ _ _ _ hi hr => hr.inv hi)
    (hi.tended.exec_chain he) hi

/-- **The invariant holds all along a run.** -/
theorem TileSetup.run_inv (hr : Exec machine (setup.start τ) s h) : Inv setup s h := by
  refine hr.invariant setup.start_inv fun s h a s' hi hs => ?_
  obtain ⟨e, he, hobs⟩ := exec_of_step hs
  rw [hobs]
  exact hi.exec he

/-! ## 2. A model of two layers -/

/-- A tile to run. -/
def sampleTile (layer work : Nat) : ScheduledTile Nat := ⟨.initialized, layer, none, work⟩

/-- Two operations, the second reads what the first produces; the first has a barrier. -/
def twoLayers : OperationGraph Nat :=
  OperationGraph.initExecutable
    { id := 3
      operationMap :=
        [{ id := 5, inputs := [0], outputs := [1],
           tiles := [sampleTile 5 0, sampleTile 5 1, ⟨.bar, 5, none, 0⟩, sampleTile 5 2] },
         { id := 6, inputs := [1], outputs := [2], tiles := [sampleTile 6 3] }]
      tensorMap := fun t =>
        if t = 0 then ⟨true, [5]⟩ else if t = 1 then ⟨false, [6]⟩ else ⟨false, []⟩ }

theorem twoLayers_initialized : twoLayers.Initialized where
  nodup := by decide
  children t id := by
    rcases t with _ | _ | t <;>
      simp [twoLayers, OperationGraph.initExecutable, OperationGraph.net, @eq_comm _ id]
  ordered :=
    { single := by
        simp [twoLayers, OperationGraph.initExecutable, OperationGraph.net, OperationGraph.ids]
      made := by
        simp [twoLayers, OperationGraph.initExecutable, OperationGraph.net, OperationGraph.ids]
      sourced := by
        simp [twoLayers, OperationGraph.initExecutable, OperationGraph.net, OperationGraph.ids]
      ranked := ⟨id, by
        simp [twoLayers, OperationGraph.initExecutable, OperationGraph.net,
          OperationGraph.ids]⟩ }
  unfinished := by simp [twoLayers, OperationGraph.initExecutable]
  tiles := by simp [twoLayers, OperationGraph.initExecutable, sampleTile]
  executable := by decide

/-- Two cores in one partition. -/
def twoCores : TileSetup where
  numCores := 2
  partitions := [(0, [0, 1])]
  cores_pos := by decide
  some_core := by decide
  cores_lt := by decide

/-- Both cores get a tile, both tiles end, and the barrier is passed. -/
def twoLayerActs : List (TileAct Nat) :=
  [.schedule ⟨twoLayers, twoLayers_initialized⟩ 10, .poll 0, .poll 1, .finish 0 0,
    .finish 1 0, .poll 0, .poll 0, .finish 0 0, .poll 1]

theorem twoLayerActs_run :
    ((machine (τ := Nat)).run twoLayerActs (twoCores.start Nat)).isSome = true := rfl

/-! ## 3. No assertion fails -/

/-- **No assertion fails**: in every state that a run reaches, a core that asks gets an answer, a
    tile that runs can end, and a model with new ids can be scheduled. -/
theorem TileSetup.never_fails (hr : Exec machine (setup.start τ) s h) :
    (∀ core < setup.numCores, (s.exec (.poll core)).isSome = true) ∧
      (∀ core index, index < (s.running core).length →
        (s.exec (.finish core index)).isSome = true) ∧
      ∀ model next, s.Fresh model.1 next → (s.exec (.schedule model next)).isSome = true := by
  have hi := setup.run_inv hr
  refine ⟨fun core hcore => ?_, fun core index hindex => ?_, fun model next hfresh => ?_⟩
  · have hcore' : core < s.sched.numCores := hi.kept.numCores ▸ hcore
    obtain ⟨r, hpoll, -⟩ := hi.tended.asked hcore'
    rw [TileSystem.exec, if_pos hcore', hpoll]
    rfl
  · obtain ⟨r, hfinish, -⟩ := hi.tended.ended (List.getElem?_eq_getElem hindex)
    rw [TileSystem.exec, hfinish]
    rfl
  · obtain ⟨r, hschedule, -⟩ := hi.tended.chain_schedule model next hfresh
    rw [hschedule]
    rfl

theorem TileSetup.never_fails_sample :
    ∃ s h, machine.run twoLayerActs (twoCores.start Nat) = some (s, h) ∧
      (∀ core < twoCores.numCores, (s.exec (.poll core)).isSome = true) ∧
      (∀ core index, index < (s.running core).length →
        (s.exec (.finish core index)).isSome = true) ∧
      ∀ model next, s.Fresh model.1 next → (s.exec (.schedule model next)).isSome = true :=
  have ⟨⟨s, h⟩, hr⟩ := Option.isSome_iff_exists.mp twoLayerActs_run
  ⟨s, h, hr, twoCores.never_fails (exec_of_run hr)⟩

/-! ## 4. Models and layers -/

/-- **Models and layers have their turn in order.** The models are finished in the order in which
    they were scheduled. The layers were started model by model: of a finished model all its layers,
    in an order in which each finds what it reads, then layers of the next model, in such an order.
    All layers that were started are finished, but for at most the last one. -/
theorem TileSetup.layers_in_order (hr : Exec machine (setup.start τ) s h) :
    ∃ past later orders now,
      scheduled h = past ++ later ∧ modelsFinished h = past.map OperationGraph.id ∧
      List.Forall₂ Served past orders ∧ layersStarted h = orders.flatten ++ now ∧
      (now = [] ∨ ∃ model rest, later = model :: rest ∧ now.Nodup ∧ model.net.ReadyOrder now) ∧
      (layersFinished h = layersStarted h ∨
        ∃ layer, layersStarted h = layersFinished h ++ [layer]) := by
  rcases (setup.run_inv hr).course with ⟨past, orders, hidle⟩ |
    ⟨past, orders, model₀, model, later, done, active, hw⟩
  · refine ⟨past, [], orders, [], ?_, hidle.finished, hidle.served, ?_, .inl rfl, .inl ?_⟩
    · rw [hidle.scheduled, List.append_nil]
    · rw [hidle.started, List.append_nil]
    · rw [hidle.done, hidle.started]
  · refine ⟨past, model₀ :: later, orders, done ++ active.toList, hw.scheduled, hw.finished,
      hw.served, hw.started, .inr ⟨model₀, later, rfl, hw.nodup, hw.ready⟩, ?_⟩
    rw [hw.started, hw.done]
    cases active with
    | none => exact .inl (by simp)
    | some layer => exact .inr ⟨layer, by simp⟩

theorem TileSetup.layers_in_order_sample :
    ∃ s h, machine.run twoLayerActs (twoCores.start Nat) = some (s, h) ∧
      ∃ past later orders now,
        scheduled h = past ++ later ∧ modelsFinished h = past.map OperationGraph.id ∧
        List.Forall₂ Served past orders ∧ layersStarted h = orders.flatten ++ now ∧
        (now = [] ∨ ∃ model rest, later = model :: rest ∧ now.Nodup ∧ model.net.ReadyOrder now) ∧
        (layersFinished h = layersStarted h ∨
          ∃ layer, layersStarted h = layersFinished h ++ [layer]) :=
  have ⟨⟨s, h⟩, hr⟩ := Option.isSome_iff_exists.mp twoLayerActs_run
  ⟨s, h, hr, twoCores.layers_in_order (exec_of_run hr)⟩

/-! ## 5. Tiles -/

/-- **Every tile has its turn once.** When a layer is finished, its tiles and barriers are those that
    were done of it; before it starts, none are. Of the tiles that a core got all have ended but
    those that run there. A tile is launched while its layer is under way, and a barrier is passed
    while nothing runs. -/
theorem TileSetup.tiles_once (hr : Exec machine (setup.start τ) s h) :
    (∀ model ∈ scheduled h, ∀ layer ∈ model.ids, layer ∈ layersFinished h →
      (tilesDone layer h).Perm ((model.getTiles layer).map ScheduledTile.identity)) ∧
    (∀ layer, layer ∉ layersStarted h → tilesDone layer h = []) ∧
    (∀ core, (launchedOn core h).Perm (finishedOn core h ++ s.running core)) ∧
    (∀ before core tile after, h = before ++ .launched core tile :: after →
      layersStarted before = layersFinished before ++ [tile.layerId]) ∧
    ∀ before tile after, h = before ++ .barrier tile :: after →
      ∀ core, (launchedOn core before).Perm (finishedOn core before) := by
  have hk := (setup.run_inv hr).kept
  exact ⟨hk.account, hk.untouched, hk.cores, hk.during, hk.still⟩

theorem TileSetup.tiles_once_sample :
    ∃ s h, machine.run twoLayerActs (twoCores.start Nat) = some (s, h) ∧
      (∀ model ∈ scheduled h, ∀ layer ∈ model.ids, layer ∈ layersFinished h →
        (tilesDone layer h).Perm ((model.getTiles layer).map ScheduledTile.identity)) ∧
      (∀ layer, layer ∉ layersStarted h → tilesDone layer h = []) ∧
      (∀ core, (launchedOn core h).Perm (finishedOn core h ++ s.running core)) ∧
      (∀ before core tile after, h = before ++ .launched core tile :: after →
        layersStarted before = layersFinished before ++ [tile.layerId]) ∧
      ∀ before tile after, h = before ++ .barrier tile :: after →
        ∀ core, (launchedOn core before).Perm (finishedOn core before) :=
  have ⟨⟨s, h⟩, hr⟩ := Option.isSome_iff_exists.mp twoLayerActs_run
  ⟨s, h, hr, twoCores.tiles_once (exec_of_run hr)⟩

/-! ## 6. Barriers -/

/-- An event that the status brings: a model or a layer is finished, or a layer starts. -/
def ofStatus : TileEvent τ → Bool
  | .modelFinished _ | .layerStarted _ _ | .layerFinished _ _ => true
  | .scheduled _ | .launched _ _ | .barrier _ | .finished _ _ => false

theorem refreshStatus_shows (t : TileScheduler τ) : ∀ v ∈ t.refreshStatus.2, ofStatus v = true := by
  have hpop : ∀ v ∈ t.popFinished.2, ofStatus v = true := by
    rw [TileScheduler.popFinished]
    split
    · simp
    · split <;> simp [ofStatus]
  have hstart : ∀ t : TileScheduler τ, ∀ v ∈ t.startLayer.2, ofStatus v = true := by
    intro t
    rw [TileScheduler.startLayer]
    split
    · simp
    · split
      · split <;> simp [ofStatus]
      · simp
  intro v hv
  rcases List.mem_append.mp hv with hv | hv
  · exact hpop v hv
  · exact hstart _ v hv

theorem finishLayer_shows {t : TileScheduler τ} {layer : Nat}
    {r : TileScheduler τ × List (TileEvent τ)} (hr : t.finishLayer layer = some r) :
    ∀ v ∈ r.2 ++ r.1.refreshStatus.2, ofStatus v = true := by
  intro v hv
  rcases List.mem_append.mp hv with hv | hv
  · rw [TileScheduler.finishLayer] at hr
    split at hr
    · cases hr
    · cases hr
      rw [List.mem_singleton.mp hv]
      rfl
  · exact refreshStatus_shows _ v hv

/-- A barrier is passed only where it stands first, and all tiles launched are finished. -/
theorem barrier_of_poll (hi : Inv setup s h) {core : Nat} (he : s.exec (.poll core) = some (s', e))
    {tile : ScheduledTile τ} (hb : .barrier tile ∈ e) :
    ∃ rest stat, s.sched.executableTileQueue 0 = tile :: rest ∧
      s.sched.layerStat tile.layerId = some stat ∧ stat.launchedTiles = stat.finishedTiles := by
  rw [TileSystem.exec] at he
  split at he
  swap
  · cases he
  next hcore =>
    cases hi.tended.of_poll hcore he with
    | empty | foreign | held => cases hb
    | launch first rest stat hown hstat hpos => simp at hb
    | refresh hown hq => cases refreshStatus_shows _ _ hb
    | last first rest stat hblocked hall hlast r hr =>
        rcases List.mem_cons.mp hb with hb | hb
        · cases hb
          exact ⟨rest, stat, hblocked.first, hblocked.entry, hall⟩
        · cases finishLayer_shows hr _ hb
    | more first rest stat hblocked hall hmore =>
        cases List.mem_singleton.mp hb
        exact ⟨rest, stat, hblocked.first, hblocked.entry, hall⟩

/-- **What a barrier is worth.** When a core passes a barrier, nothing runs; and all tiles before it
    are done if and only if none of them is still in the queue of a core, where it has not been
    launched. -/
theorem TileSetup.barrier_iff (hr : Exec machine (setup.start τ) s h) {core : Nat}
    (he : s.exec (.poll core) = some (s', e)) {tile : ScheduledTile τ} (hb : .barrier tile ∈ e) :
    ∃ model ∈ scheduled h, ∃ before after,
      (model.getTiles tile.layerId).map ScheduledTile.identity =
          before ++ tile.identity :: after ∧
        (∀ c, s.running c = []) ∧
        (before.Perm (tilesDone tile.layerId h) ↔
          ∀ c < setup.numCores, s.sched.coreExecutableTileQueue c = []) := by
  have hi := setup.run_inv hr
  obtain ⟨rest, stat, hq, hstat, hall⟩ := barrier_of_poll hi he hb
  obtain ⟨past, orders, model₀, model, later, done, hw, -⟩ :=
    hi.working (mem_contents_of_waiting (hq ▸ List.mem_cons_self))
  have hu := hw.underway _ rfl
  obtain ⟨stat', hentry, -, hlaunched⟩ := hu.entry
  rw [TileScheduler.layerStat_of_single hentry] at hstat
  obtain rfl : stat' = stat := Option.some.inj hstat
  have hruns : s.runs = 0 := Multiset.card_eq_zero.mp (by omega)
  obtain ⟨before, hbefore⟩ := hu.last
  rw [hq, List.map_cons] at hbefore
  -- what is before the barrier is done or in the queue of a core
  have hsum : (tilesDone tile.layerId h : Multiset (ScheduledTile τ)) +
      s.queued.map ScheduledTile.identity = before := by
    have htiles := hu.tiles
    rw [contents_of_waiting hq, hruns, ← hbefore, add_zero, Multiset.map_cons, Multiset.map_add,
      ← Multiset.coe_add, ← Multiset.cons_coe] at htiles
    have hcons : tile.identity ::ₘ ((rest.map ScheduledTile.identity : List _) +
        ((tilesDone tile.layerId h : Multiset (ScheduledTile τ)) +
          s.queued.map ScheduledTile.identity)) =
        tile.identity ::ₘ (((rest.map ScheduledTile.identity : List _) : Multiset _) +
          (before : Multiset (ScheduledTile τ))) := by
      rw [Multiset.add_cons, Multiset.add_cons] at htiles
      rw [add_comm _ (before : Multiset (ScheduledTile τ)), ← htiles]
      refine congrArg _ ?_
      simp only [Multiset.map_coe]
      ac_rfl
    exact add_left_cancel ((Multiset.cons_inj_right _).mp hcons)
  refine ⟨model₀, ?_, before, rest.map ScheduledTile.identity, hbefore.symm, fun c => ?_, ?_⟩
  · rw [hw.scheduled]
    exact List.mem_append_right _ List.mem_cons_self
  · rcases Nat.lt_or_ge c s.sched.numCores with hc | hc
    · exact gather_eq_zero.mp hruns c hc
    · exact hi.kept.outside c hc
  · rw [← Multiset.coe_eq_coe, ← hsum, add_eq_left, Multiset.map_eq_zero, ← hi.kept.numCores]
    exact gather_eq_zero

/-- The first core has ended its tile and passes the barrier, while the tile of the second core is
    still in its queue. -/
theorem barrier_passed_early :
    ((machine.run (twoLayerActs.take 2 ++ [.finish 0 0]) (twoCores.start Nat)).bind fun r =>
      (r.1.exec (.poll 0)).bind fun r' => r'.2.head?.map fun event =>
        (event, r.1.sched.coreExecutableTileQueue 1)) =
      some (.barrier ⟨.bar, 5, none, 0⟩, [⟨.initialized, 5, some 1, 1⟩]) := rfl

theorem TileSetup.barrier_iff_sample :
    ∃ s h r, machine.run (twoLayerActs.take 2 ++ [.finish 0 0]) (twoCores.start Nat) =
        some (s, h) ∧
      s.exec (.poll 0) = some r ∧
      ∃ model ∈ scheduled h, ∃ before after,
        (model.getTiles 5).map ScheduledTile.identity =
            before ++ ⟨.bar, 5, none, 0⟩ :: after ∧
          (∀ c, s.running c = []) ∧
          (before.Perm (tilesDone 5 h) ↔
            ∀ c < twoCores.numCores, s.sched.coreExecutableTileQueue c = []) :=
  have ⟨⟨s, h⟩, hr, heq⟩ := Option.bind_eq_some_iff.mp barrier_passed_early
  have ⟨r, he, heq⟩ := Option.bind_eq_some_iff.mp heq
  have ⟨event, hhead, heq⟩ := Option.map_eq_some_iff.mp heq
  have hevent : event = .barrier ⟨.bar, 5, none, 0⟩ := (Prod.mk.inj heq).1
  have hb : .barrier ⟨.bar, 5, none, 0⟩ ∈ r.2 := hevent ▸ List.mem_of_mem_head? hhead
  ⟨s, h, r, hr, he, twoCores.barrier_iff (exec_of_run hr) he hb⟩

end Ahasd
