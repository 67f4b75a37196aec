/-
  File:      Ahasd/Tiles/Course.lean
  Subject:   THE COURSE OF A RUN OF THE SCHEDULER OF TILES: which models, layers and tiles have had
             their turn.

  * `scheduled`, `layersStarted`, `tilesDone`, ...: what a history shows;
  * `Served`: a finished model, with the order of its layers; `Working`, `Underway`: the model and
    the layer that are under way;
  * `Inv`: the invariant; `Rule.inv`: every rule keeps it; `Inv.tended`: it is what the acts need.
-/
import Ahasd.Tiles.Rules
import Mathlib.Data.List.Flatten
import Mathlib.Data.List.Forall2

namespace Ahasd

open Transition Queues

variable {τ : Type}

/-! ## 1. What a history shows -/

/-- The models, in the order in which they were scheduled. -/
def scheduled (h : List (TileEvent τ)) : List (OperationGraph τ) :=
  h.filterMap fun
    | .scheduled model => some model
    | _ => none

/-- The models that were finished. -/
def modelsFinished (h : List (TileEvent τ)) : List Nat :=
  h.filterMap fun
    | .modelFinished model => some model
    | _ => none

/-- The layers that were started. -/
def layersStarted (h : List (TileEvent τ)) : List Nat :=
  h.filterMap fun
    | .layerStarted _ layer => some layer
    | _ => none

/-- The layers that were finished. -/
def layersFinished (h : List (TileEvent τ)) : List Nat :=
  h.filterMap fun
    | .layerFinished _ layer => some layer
    | _ => none

/-- The tiles that a core got. -/
def launchedOn (core : Nat) (h : List (TileEvent τ)) : List (ScheduledTile τ) :=
  h.filterMap fun
    | .launched c tile => if c = core then some tile else none
    | _ => none

/-- The tiles that ended on a core. -/
def finishedOn (core : Nat) (h : List (TileEvent τ)) : List (ScheduledTile τ) :=
  h.filterMap fun
    | .finished c tile => if c = core then some tile else none
    | _ => none

/-- The tiles of a layer that ended, and its barriers that were passed. -/
def tilesDone (layer : Nat) (h : List (TileEvent τ)) : List (ScheduledTile τ) :=
  h.filterMap fun
    | .finished _ tile => if tile.layerId = layer then some tile.identity else none
    | .barrier tile => if tile.layerId = layer then some tile.identity else none
    | _ => none

section Shown

variable (h e : List (TileEvent τ)) (layer core : Nat)

@[simp] theorem scheduled_append : scheduled (h ++ e) = scheduled h ++ scheduled e :=
  List.filterMap_append

@[simp] theorem modelsFinished_append :
    modelsFinished (h ++ e) = modelsFinished h ++ modelsFinished e :=
  List.filterMap_append

@[simp] theorem layersStarted_append :
    layersStarted (h ++ e) = layersStarted h ++ layersStarted e :=
  List.filterMap_append

@[simp] theorem layersFinished_append :
    layersFinished (h ++ e) = layersFinished h ++ layersFinished e :=
  List.filterMap_append

@[simp] theorem launchedOn_append :
    launchedOn core (h ++ e) = launchedOn core h ++ launchedOn core e :=
  List.filterMap_append

@[simp] theorem finishedOn_append :
    finishedOn core (h ++ e) = finishedOn core h ++ finishedOn core e :=
  List.filterMap_append

@[simp] theorem tilesDone_append :
    tilesDone layer (h ++ e) = tilesDone layer h ++ tilesDone layer e :=
  List.filterMap_append

end Shown

namespace TileSystem

/-! ## 2. The invariant -/

/-- A model that was finished, with the order of its layers: all of them, and each finds what it
    reads. -/
structure Served (model : OperationGraph τ) (order : List Nat) : Prop where
  all : order.Perm model.ids
  ready : model.net.ReadyOrder order

/-- No layer is under way. -/
structure Quiet (s : TileSystem τ) : Prop where
  entries : s.sched.activeLayersMap = []
  tiles : s.contents = 0

/-- The layer under way: its entry counts its tiles, and its tiles are done or in the system; those
    at the barrier are the last of them. -/
structure Underway (s : TileSystem τ) (h : List (TileEvent τ)) (model : OperationGraph τ)
    (layer : Nat) : Prop where
  entry : ∃ stat, s.sched.activeLayersMap = [(layer, stat)] ∧
    stat.remainTiles = s.contents.card ∧ stat.launchedTiles = stat.finishedTiles + s.runs.card
  tiles : (tilesDone layer h : Multiset (ScheduledTile τ)) +
    s.contents.map ScheduledTile.identity = (model.getTiles layer).map ScheduledTile.identity
  last : (s.sched.executableTileQueue 0).map ScheduledTile.identity <:+
    (model.getTiles layer).map ScheduledTile.identity

/-- Nothing is left to do. -/
structure Idle (s : TileSystem τ) (h : List (TileEvent τ)) (past : List (OperationGraph τ))
    (orders : List (List Nat)) : Prop where
  served : List.Forall₂ Served past orders
  scheduled : scheduled h = past
  queue : s.sched.requestQueue = []
  finished : modelsFinished h = past.map OperationGraph.id
  started : layersStarted h = orders.flatten
  done : layersFinished h = orders.flatten
  quiet : s.Quiet

/-- The first model of the queue is `model₀` after the layers `done`, perhaps with a layer under
    way. -/
structure Working (s : TileSystem τ) (h : List (TileEvent τ)) (past : List (OperationGraph τ))
    (orders : List (List Nat)) (model₀ model : OperationGraph τ) (later : List (OperationGraph τ))
    (done : List Nat) (active : Option Nat) : Prop where
  served : List.Forall₂ Served past orders
  scheduled : scheduled h = past ++ model₀ :: later
  queue : s.sched.requestQueue = model :: later
  finished : modelsFinished h = past.map OperationGraph.id
  front : OperationGraph.At model₀ model done active
  ready : model₀.net.ReadyOrder (done ++ active.toList)
  nodup : (done ++ active.toList).Nodup
  started : layersStarted h = orders.flatten ++ (done ++ active.toList)
  done : layersFinished h = orders.flatten ++ done
  quiet : active = none → s.Quiet
  underway : ∀ layer, active = some layer → s.Underway h model₀ layer

/-- What holds of the queues and of the history, whatever is under way. -/
structure Kept (setup : TileSetup) (s : TileSystem τ) (h : List (TileEvent τ)) : Prop where
  numCores : s.sched.numCores = setup.numCores
  partitions : s.sched.partitions = setup.partitions
  elsewhere : ∀ partition, partition ≠ 0 → s.sched.executableTileQueue partition = []
  outside : ∀ core, s.sched.numCores ≤ core → s.running core = []
  issued : ∀ tile ∈ s.queued, tile.status ≠ .bar
  initialized : ∀ model ∈ scheduled h, model.Initialized
  given : ∀ model ∈ scheduled h, ∀ id ∈ model.ids, id < s.idCounter
  distinct : ((scheduled h).flatMap OperationGraph.ids).Nodup
  cores : ∀ core, (launchedOn core h).Perm (finishedOn core h ++ s.running core)
  account : ∀ model ∈ scheduled h, ∀ layer ∈ model.ids, layer ∈ layersFinished h →
    (tilesDone layer h).Perm ((model.getTiles layer).map ScheduledTile.identity)
  untouched : ∀ layer, layer ∉ layersStarted h → tilesDone layer h = []
  during : ∀ before core tile after, h = before ++ .launched core tile :: after →
    layersStarted before = layersFinished before ++ [tile.layerId]
  still : ∀ before tile after, h = before ++ .barrier tile :: after →
    ∀ core, (launchedOn core before).Perm (finishedOn core before)

/-- **The invariant of a run.** -/
structure Inv (setup : TileSetup) (s : TileSystem τ) (h : List (TileEvent τ)) : Prop where
  kept : Kept setup s h
  course : (∃ past orders, Idle s h past orders) ∨
    ∃ past orders model₀ model later done active,
      Working s h past orders model₀ model later done active

variable {setup : TileSetup} {s s' : TileSystem τ} {h e : List (TileEvent τ)}
  {past later : List (OperationGraph τ)} {orders : List (List Nat)}
  {model₀ model : OperationGraph τ} {done : List Nat} {active : Option Nat} {layer : Nat}
  {tile : ScheduledTile τ}

/-! ## 3. What the invariant gives -/

/-- The tiles of an operation. -/
theorem of_mem_getTiles (hI : model₀.Initialized) (ht : tile ∈ model₀.getTiles layer) :
    tile.layerId = layer ∧ (tile.status = .initialized ∨ tile.status = .bar) := by
  rw [OperationGraph.getTiles] at ht
  cases hop : model₀.getOperation layer with
  | none =>
      rw [hop] at ht
      cases ht
  | some op =>
      rw [hop] at ht
      have hmem := List.mem_of_find?_eq_some hop
      have hid : op.id = layer := by simpa using List.find?_some hop
      rw [← hid]
      exact (hI.tiles op hmem).2 tile ht

/-- A tile in the system is one of the layer under way. -/
theorem Underway.of_mem (hu : s.Underway h model₀ layer) (hI : model₀.Initialized)
    (ht : tile ∈ s.contents) :
    tile.layerId = layer ∧ (tile.status = .initialized ∨ tile.status = .bar) := by
  have hmem : tile.identity ∈ (tilesDone layer h : Multiset (ScheduledTile τ)) +
      s.contents.map ScheduledTile.identity :=
    Multiset.mem_add.mpr (.inr (Multiset.mem_map_of_mem _ ht))
  rw [hu.tiles] at hmem
  obtain ⟨tile', ht', heq⟩ := List.mem_map.mp (Multiset.mem_coe.mp hmem)
  have hlayer : tile'.identity.layerId = tile.identity.layerId := by rw [heq]
  have hstatus : tile'.identity.status = tile.identity.status := by rw [heq]
  obtain ⟨hid, hst⟩ := of_mem_getTiles hI ht'
  exact ⟨hlayer.symm.trans hid, hst.imp hstatus.symm.trans hstatus.symm.trans⟩

/-- The layers of the finished models are those of the models. -/
theorem flatten_perm (hs : List.Forall₂ Served past orders) :
    orders.flatten.Perm (past.flatMap OperationGraph.ids) := by
  induction hs with
  | nil => exact .refl []
  | cons hserved _ ih =>
      rw [List.flatten_cons, List.flatMap_cons]
      exact hserved.all.append ih

/-- No layer of a model is one of another model before it. -/
theorem flatten_nodup (hs : List.Forall₂ Served past orders)
    (hdistinct : ((past ++ model₀ :: later).flatMap OperationGraph.ids).Nodup) {now : List Nat}
    (hnow : now.Nodup) (hsub : ∀ id ∈ now, id ∈ model₀.ids) : (orders.flatten ++ now).Nodup := by
  rw [List.flatMap_append, List.flatMap_cons] at hdistinct
  obtain ⟨hpast, -, hapart⟩ := List.nodup_append.mp hdistinct
  refine List.nodup_append.mpr ⟨(flatten_perm hs).nodup_iff.mpr hpast, hnow, fun a ha b hb => ?_⟩
  exact hapart a ((flatten_perm hs).mem_iff.mp ha) b (List.mem_append_left _ (hsub b hb))

namespace Working

variable (hw : Working s h past orders model₀ model later done active)
include hw

theorem initialized (hk : Kept setup s h) : model₀.Initialized :=
  hk.initialized model₀ (by rw [hw.scheduled]; exact List.mem_append_right _ List.mem_cons_self)

theorem mem_ids : ∀ id ∈ done ++ active.toList, id ∈ model₀.ids := by
  intro id hid
  refine (hw.front.ready.legal id ?_).1
  simpa [Option.mem_toList] using hid

/-- No layer is started twice. -/
theorem started_nodup (hk : Kept setup s h) : (layersStarted h).Nodup := by
  have hdistinct := hk.distinct
  rw [hw.scheduled] at hdistinct
  rw [hw.started]
  exact flatten_nodup hw.served hdistinct hw.nodup hw.mem_ids

/-- A layer of the model is no layer of another. -/
theorem owner (hk : Kept setup s h) {model' : OperationGraph τ} (hmem : model' ∈ Ahasd.scheduled h)
    (hid' : layer ∈ model'.ids) (hid : layer ∈ model₀.ids) : model' = model₀ := by
  have hdistinct := hk.distinct
  rw [hw.scheduled, List.flatMap_append, List.flatMap_cons] at hdistinct
  obtain ⟨-, hfront, hpast⟩ := List.nodup_append.mp hdistinct
  obtain ⟨-, -, hlater⟩ := List.nodup_append.mp hfront
  rw [hw.scheduled] at hmem
  rcases List.mem_append.mp hmem with hmem | hmem
  · exact absurd rfl (hpast layer (List.mem_flatMap.mpr ⟨model', hmem, hid'⟩) layer
      (List.mem_append_left _ hid))
  · rcases List.mem_cons.mp hmem with heq | hmem
    · exact heq
    · exact absurd rfl (hlater layer hid layer (List.mem_flatMap.mpr ⟨model', hmem, hid'⟩))

/-- With a tile in the system, a layer is under way. -/
theorem exists_active (ht : tile ∈ s.contents) : ∃ layer, active = some layer := by
  cases hactive : active with
  | some layer => exact ⟨layer, rfl⟩
  | none =>
      rw [(hw.quiet hactive).tiles] at ht
      cases ht

end Working

/-- The layer under way was started, and is not finished. -/
theorem Working.active_open
    (hw : Working s h past orders model₀ model later done (some layer)) (hk : Kept setup s h) :
    layer ∈ layersStarted h ∧ layer ∉ layersFinished h ∧
      layersStarted h = layersFinished h ++ [layer] := by
  have hstarted : layersStarted h = layersFinished h ++ [layer] := by
    rw [hw.started, hw.done, List.append_assoc]
    rfl
  have hnodup := hw.started_nodup hk
  rw [hstarted] at hnodup
  refine ⟨?_, fun hmem => ?_, hstarted⟩
  · rw [hstarted]
    exact List.mem_append_right _ List.mem_cons_self
  · exact (List.nodup_append.mp hnodup).2.2 layer hmem layer List.mem_cons_self rfl

/-- The invariant where a tile is in the system. -/
theorem Inv.working (hi : Inv setup s h) (ht : tile ∈ s.contents) :
    ∃ past orders model₀ model later done,
      Working s h past orders model₀ model later done (some tile.layerId) ∧
        (tile.status = .initialized ∨ tile.status = .bar) := by
  rcases hi.course with ⟨past, orders, hidle⟩ |
    ⟨past, orders, model₀, model, later, done, active, hw⟩
  · rw [hidle.quiet.tiles] at ht
    cases ht
  · obtain ⟨layer, rfl⟩ := hw.exists_active ht
    obtain ⟨rfl, hstatus⟩ := (hw.underway layer rfl).of_mem (hw.initialized hi.kept) ht
    exact ⟨past, orders, model₀, model, later, done, hw, hstatus⟩

/-- The invariant where a model is at the front. -/
theorem Inv.at_front (hi : Inv setup s h) (hq : s.sched.requestQueue = model :: later) :
    ∃ past orders model₀ done active,
      Working s h past orders model₀ model later done active := by
  rcases hi.course with ⟨past, orders, hidle⟩ |
    ⟨past, orders, model₀, front, later', done, active, hw⟩
  · rw [hidle.queue] at hq
    cases hq
  · rw [hw.queue] at hq
    cases hq
    exact ⟨past, orders, model₀, done, active, hw⟩

/-- With no entry, no layer is under way. -/
theorem Inv.at_rest (hi : Inv setup s h) (hq : s.sched.requestQueue = model :: later)
    (hactive : s.sched.activeLayersMap = []) :
    ∃ past orders model₀ done, Working s h past orders model₀ model later done none := by
  obtain ⟨past, orders, model₀, done, active, hw⟩ := hi.at_front hq
  cases active with
  | none => exact ⟨past, orders, model₀, done, hw⟩
  | some layer =>
      obtain ⟨stat, hentry, -⟩ := (hw.underway layer rfl).entry
      rw [hactive] at hentry
      cases hentry

/-- A layer with an entry is the one under way. -/
theorem Inv.of_stat (hi : Inv setup s h) {stat : LayerStat}
    (hq : s.sched.requestQueue = model :: later) (hstat : s.sched.layerStat layer = some stat) :
    ∃ past orders model₀ done, Working s h past orders model₀ model later done (some layer) := by
  obtain ⟨past, orders, model₀, done, active, hw⟩ := hi.at_front hq
  cases active with
  | none =>
      rw [TileScheduler.layerStat, (hw.quiet rfl).entries] at hstat
      cases hstat
  | some l =>
      obtain ⟨stat', hentry, -⟩ := (hw.underway l rfl).entry
      rw [TileScheduler.layerStat, hentry, List.lookup_cons] at hstat
      split at hstat
      · next heq =>
          rw [beq_iff_eq.mp heq]
          exact ⟨past, orders, model₀, done, hw⟩
      · cases hstat

/-- **The invariant is what the acts need.** -/
theorem Inv.tended (hi : Inv setup s h) : s.Tended where
  cores_pos := hi.kept.numCores ▸ setup.cores_pos
  some_core := by
    rw [TileScheduler.partitionMap, hi.kept.partitions]
    exact setup.some_core
  cores_lt := by
    rw [TileScheduler.partitionMap, hi.kept.partitions, hi.kept.numCores]
    exact setup.cores_lt
  elsewhere := hi.kept.elsewhere
  outside := hi.kept.outside
  entry tile ht := by
    obtain ⟨past, orders, model₀, model, later, done, hw, -⟩ := hi.working ht
    obtain ⟨stat, hentry, hremain, -⟩ := (hw.underway _ rfl).entry
    refine ⟨stat, TileScheduler.layerStat_of_single hentry, ?_⟩
    rw [hremain]
    exact Nat.pos_iff_ne_zero.mp (Multiset.card_pos_iff_exists_mem.mpr ⟨tile, ht⟩)
  model tile ht := by
    obtain ⟨past, orders, model₀, model, later, done, hw, -⟩ := hi.working ht
    rw [hw.queue]
    exact List.cons_ne_nil _ _
  issued tile ht := by
    obtain ⟨past, orders, model₀, model, later, done, -, hstatus⟩ :=
      hi.working (mem_contents_of_queued ht)
    exact hstatus.resolve_right (hi.kept.issued tile ht)

/-! ## 4. The rules that move a tile -/

/-- A step that shows no model and no layer. -/
structure OfTiles (e : List (TileEvent τ)) : Prop where
  scheduled : Ahasd.scheduled e = []
  modelsFinished : Ahasd.modelsFinished e = []
  started : layersStarted e = []
  done : layersFinished e = []

/-- An event of a longer history is one of the history, or the new one. -/
theorem eq_or_of_split {v w : TileEvent τ} {before after : List (TileEvent τ)}
    (heq : h ++ [v] = before ++ w :: after) :
    (∃ after', h = before ++ w :: after') ∨ (before = h ∧ w = v) := by
  rcases List.eq_nil_or_concat after with rfl | ⟨after, last, rfl⟩
  · obtain ⟨rfl, hv⟩ := List.append_inj' heq rfl
    cases hv
    exact .inr ⟨rfl, rfl⟩
  · rw [List.concat_eq_append, ← List.cons_append, ← List.append_assoc] at heq
    exact .inl ⟨after, (List.append_inj' heq rfl).1⟩

/-- A tile moves: the models and layers stay as they are. -/
theorem Working.tile_step
    (hw : Working s h past orders model₀ model later done (some layer)) (he : OfTiles e)
    (hq : s'.sched.requestQueue = s.sched.requestQueue)
    (hu : s'.Underway (h ++ e) model₀ layer) :
    Working s' (h ++ e) past orders model₀ model later done (some layer) where
  served := hw.served
  scheduled := by rw [scheduled_append, he.scheduled, List.append_nil, hw.scheduled]
  queue := hq.trans hw.queue
  finished := by rw [modelsFinished_append, he.modelsFinished, List.append_nil, hw.finished]
  front := hw.front
  ready := hw.ready
  nodup := hw.nodup
  started := by rw [layersStarted_append, he.started, List.append_nil, hw.started]
  done := by rw [layersFinished_append, he.done, List.append_nil, hw.done]
  quiet hnone := by cases hnone
  underway _ hlayer := by
    cases hlayer
    exact hu

/-- What a tile that moves has to keep. -/
structure KeepsTiles (s s' : TileSystem τ) (h e : List (TileEvent τ)) (layer : Nat) : Prop where
  numCores : s'.sched.numCores = s.sched.numCores
  partitions : s'.sched.partitions = s.sched.partitions
  idCounter : s'.idCounter = s.idCounter
  elsewhere : ∀ partition, partition ≠ 0 → s'.sched.executableTileQueue partition = []
  outside : ∀ core, s'.sched.numCores ≤ core → s'.running core = []
  issued : ∀ tile ∈ s'.queued, tile.status ≠ .bar
  cores : ∀ core, (launchedOn core (h ++ e)).Perm (finishedOn core (h ++ e) ++ s'.running core)
  others : ∀ layer', layer' ≠ layer → tilesDone layer' e = []
  launches : ∀ before core tile after, h ++ e = before ++ .launched core tile :: after →
    (∃ after', h = before ++ .launched core tile :: after') ∨ before = h ∧ tile.layerId = layer
  passes : ∀ before tile after, h ++ e = before ++ .barrier tile :: after →
    (∃ after', h = before ++ .barrier tile :: after') ∨
      before = h ∧ ∀ core, (launchedOn core h).Perm (finishedOn core h)

theorem Kept.tile_step (hk : Kept setup s h)
    (hw : Working s h past orders model₀ model later done (some layer)) (he : OfTiles e)
    (hm : KeepsTiles s s' h e layer) : Kept setup s' (h ++ e) := by
  obtain ⟨hmem, hnot, hopen⟩ := hw.active_open hk
  have hsched : Ahasd.scheduled (h ++ e) = Ahasd.scheduled h := by
    rw [scheduled_append, he.scheduled, List.append_nil]
  have hstarted : layersStarted (h ++ e) = layersStarted h := by
    rw [layersStarted_append, he.started, List.append_nil]
  have hdone : layersFinished (h ++ e) = layersFinished h := by
    rw [layersFinished_append, he.done, List.append_nil]
  have htiles : ∀ layer', layer' ≠ layer → tilesDone layer' (h ++ e) = tilesDone layer' h := by
    intro layer' hne
    rw [tilesDone_append, hm.others layer' hne, List.append_nil]
  exact {
    numCores := hm.numCores.trans hk.numCores
    partitions := hm.partitions.trans hk.partitions
    elsewhere := hm.elsewhere
    outside := hm.outside
    issued := hm.issued
    initialized := hsched ▸ hk.initialized
    given := by
      rw [hsched, hm.idCounter]
      exact hk.given
    distinct := hsched ▸ hk.distinct
    cores := hm.cores
    account := by
      rw [hsched, hdone]
      intro model' hmodel' layer' hid hfin
      rw [htiles layer' fun heq => hnot (heq ▸ hfin)]
      exact hk.account model' hmodel' layer' hid hfin
    untouched := by
      rw [hstarted]
      intro layer' hlayer'
      rw [htiles layer' fun heq => hlayer' (heq ▸ hmem)]
      exact hk.untouched layer' hlayer'
    during := by
      intro before core tile after heq
      rcases hm.launches before core tile after heq with ⟨after', hold⟩ | ⟨rfl, hid⟩
      · exact hk.during before core tile after' hold
      · rw [hid]
        exact hopen
    still := by
      intro before tile after heq
      rcases hm.passes before tile after heq with ⟨after', hold⟩ | ⟨rfl, hcores⟩
      · exact hk.still before tile after' hold
      · exact hcores }

/-- What is done of the layer and what is left are together as before. -/
theorem Underway.step (hu : s.Underway h model₀ layer)
    (hentry : ∃ stat, s'.sched.activeLayersMap = [(layer, stat)] ∧
      stat.remainTiles = s'.contents.card ∧ stat.launchedTiles = stat.finishedTiles + s'.runs.card)
    (htiles : (tilesDone layer e : Multiset (ScheduledTile τ)) +
      s'.contents.map ScheduledTile.identity = s.contents.map ScheduledTile.identity)
    (hlast : s'.sched.executableTileQueue 0 <:+ s.sched.executableTileQueue 0) :
    s'.Underway (h ++ e) model₀ layer where
  entry := hentry
  tiles := by
    rw [tilesDone_append, ← Multiset.coe_add, add_assoc, htiles]
    exact hu.tiles
  last := (hlast.map _).trans hu.last

section TileRules

variable {partition core index : Nat} {rest : List (ScheduledTile τ)} {stat : LayerStat}

/-- The tiles, with the first of those at the barrier. -/
theorem contents_of_waiting (hq : s.sched.executableTileQueue 0 = tile :: rest) :
    s.contents = tile ::ₘ ((rest : Multiset (ScheduledTile τ)) + s.queued + s.runs) := by
  rw [contents, hq, ← Multiset.cons_coe, Multiset.cons_add, Multiset.cons_add]

/-- Nothing is in the system. -/
theorem contents_eq_zero :
    s.contents = 0 ↔ s.sched.executableTileQueue 0 = [] ∧ s.queued = 0 ∧ s.runs = 0 := by
  rw [contents, add_eq_zero, add_eq_zero, Multiset.coe_eq_zero, and_assoc]

theorem elsewhere_eq (hk : Kept setup s h)
    (hq : s.sched.executableTileQueue partition = tile :: rest) : partition = 0 := by
  by_contra hne
  rw [hk.elsewhere partition hne] at hq
  cases hq

/-- The other partitions stay empty. -/
theorem elsewhere_update (hk : Kept setup s h) (queue : List (ScheduledTile τ)) :
    ∀ p, p ≠ 0 → Function.update s.sched.executableTileQueue 0 queue p = [] := by
  intro p hp
  rw [Function.update_of_ne hp]
  exact hk.elsewhere p hp

/-- A core that is none stays without tiles. -/
theorem outside_update (hk : Kept setup s h) (hcore : core < s.sched.numCores)
    (tiles : List (ScheduledTile τ)) :
    ∀ c, s.sched.numCores ≤ c → Function.update s.running core tiles c = [] := by
  intro c hc
  rw [Function.update_of_ne (by omega)]
  exact hk.outside c hc

/-- A tile goes to the queue of a core. -/
theorem Inv.issue (hi : Inv setup s h)
    (hq : s.sched.executableTileQueue partition = tile :: rest) (hbar : tile.status ≠ .bar)
    (hcore : core < s.sched.numCores) :
    Inv setup { s with sched := s.sched.issueTile partition core tile rest } (h ++ []) := by
  obtain rfl := elsewhere_eq hi.kept hq
  obtain ⟨past, orders, model₀, model, later, done, hw, -⟩ :=
    hi.working (mem_contents_of_waiting (hq ▸ List.mem_cons_self))
  have hu := hw.underway _ rfl
  obtain ⟨stat, hentry, hremain, hlaunched⟩ := hu.entry
  have hqueued : queued { s with sched := s.sched.issueTile 0 core tile rest } =
      { tile with coreId := some core } ::ₘ s.queued := gather_push hcore _
  have hcontents : contents { s with sched := s.sched.issueTile 0 core tile rest } =
      { tile with coreId := some core } ::ₘ
        ((rest : Multiset (ScheduledTile τ)) + s.queued + s.runs) := by
    rw [contents, hqueued, Multiset.add_cons, Multiset.cons_add]
    simp only [TileScheduler.issueTile, Function.update_self]
    rfl
  have he : OfTiles ([] : List (TileEvent τ)) := ⟨rfl, rfl, rfl, rfl⟩
  refine ⟨hi.kept.tile_step hw he ?_, .inr ⟨past, orders, model₀, model, later, done, _,
    hw.tile_step he rfl (hu.step ⟨stat, hentry, ?_, hlaunched⟩ ?_ ?_)⟩⟩
  · exact {
      numCores := rfl
      partitions := rfl
      idCounter := rfl
      elsewhere := elsewhere_update hi.kept rest
      outside := hi.kept.outside
      issued := by
        rw [hqueued]
        intro tile' ht'
        rcases Multiset.mem_cons.mp ht' with rfl | ht'
        · exact hbar
        · exact hi.kept.issued tile' ht'
      cores := by simpa using hi.kept.cores
      others := fun _ _ => rfl
      launches := fun before c t after heq => .inl ⟨after, by rwa [List.append_nil] at heq⟩
      passes := fun before t after heq => .inl ⟨after, by rwa [List.append_nil] at heq⟩ }
  · rw [hremain, hcontents, contents_of_waiting hq, Multiset.card_cons, Multiset.card_cons]
  · rw [hcontents, contents_of_waiting hq, Multiset.map_cons, Multiset.map_cons]
    exact zero_add _
  · rw [hq]
    simp only [TileScheduler.issueTile, Function.update_self]
    exact List.suffix_cons _ _

/-- A core gets a tile. -/
theorem Inv.launch (hi : Inv setup s h) (hcore : core < s.sched.numCores)
    (hq : s.sched.coreExecutableTileQueue core = tile :: rest)
    (hstat : s.sched.layerStat tile.layerId = some stat) :
    Inv setup
      { s with
        sched := TileScheduler.setStat tile.layerId
          { stat with launchedTiles := stat.launchedTiles + 1 }
          { s.sched with
            coreExecutableTileQueue :=
              Function.update s.sched.coreExecutableTileQueue core rest }
        running := Function.update s.running core (s.running core ++ [tile]) }
      (h ++ [.launched core tile]) := by
  have hqueued : s.queued = tile ::ₘ
      gather (Function.update s.sched.coreExecutableTileQueue core rest) s.sched.numCores :=
    gather_pop hcore hq
  have hmem : tile ∈ s.queued := by
    rw [hqueued]
    exact Multiset.mem_cons_self _ _
  obtain ⟨past, orders, model₀, model, later, done, hw, -⟩ :=
    hi.working (mem_contents_of_queued hmem)
  have hu := hw.underway _ rfl
  obtain ⟨stat', hentry, hremain, hlaunched⟩ := hu.entry
  rw [TileScheduler.layerStat_of_single hentry] at hstat
  obtain rfl : stat' = stat := Option.some.inj hstat
  generalize hs' : ({ s with
      sched := TileScheduler.setStat tile.layerId _ _
      running := _ } : TileSystem τ) = s'
  have hruns : s'.runs = tile ::ₘ s.runs := by
    rw [← hs']
    exact gather_push hcore _
  have hcontents : s'.contents = s.contents := by
    rw [contents, contents, hruns, hqueued, ← hs', Multiset.add_cons, Multiset.add_cons,
      Multiset.cons_add]
    rfl
  have hentry' : s'.sched.activeLayersMap = [(tile.layerId, { stat' with launchedTiles := stat'.launchedTiles + 1 })] := by
    rw [← hs']
    exact TileScheduler.setStat_of_single hentry
  have he : OfTiles [(.launched core tile : TileEvent τ)] := ⟨rfl, rfl, rfl, rfl⟩
  refine ⟨hi.kept.tile_step hw he ?_, .inr ⟨past, orders, model₀, model, later, done, _,
    hw.tile_step he (by rw [← hs']; rfl) (hu.step ⟨_, hentry', ?_, ?_⟩ ?_ ?_)⟩⟩
  · exact {
      numCores := by rw [← hs']; rfl
      partitions := by rw [← hs']; rfl
      idCounter := by rw [← hs']
      elsewhere := by rw [← hs']; exact hi.kept.elsewhere
      outside := by rw [← hs']; exact outside_update hi.kept hcore _
      issued := by
        intro tile' ht'
        refine hi.kept.issued tile' ?_
        rw [hqueued]
        rw [← hs'] at ht'
        exact Multiset.mem_cons_of_mem ht'
      cores := by
        intro c
        have hold := hi.kept.cores c
        rw [launchedOn_append, finishedOn_append, ← hs']
        by_cases hc : c = core
        · subst hc
          simpa [launchedOn, finishedOn] using hold.append_right [tile]
        · simpa [launchedOn, finishedOn, hc, Ne.symm hc] using hold
      others := fun _ _ => rfl
      launches := by
        intro before c t after heq
        rcases eq_or_of_split heq with hold | ⟨hbefore, hv⟩
        · exact .inl hold
        · cases hv
          exact .inr ⟨hbefore, rfl⟩
      passes := by
        intro before t after heq
        rcases eq_or_of_split heq with hold | ⟨-, hv⟩
        · exact .inl hold
        · cases hv }
  · rw [hcontents]
    exact hremain
  · rw [hruns, Multiset.card_cons, ← Nat.add_assoc, ← hlaunched]
  · rw [hcontents]
    exact zero_add _
  · rw [← hs']
    exact List.suffix_refl _

/-- A barrier is passed. -/
theorem Inv.barrier (hi : Inv setup s h)
    (hq : s.sched.executableTileQueue partition = tile :: rest)
    (hstat : s.sched.layerStat tile.layerId = some stat)
    (hall : stat.launchedTiles = stat.finishedTiles) :
    Inv setup
      { s with
        sched := TileScheduler.setStat tile.layerId
          { stat with
            launchedTiles := stat.launchedTiles + 1
            finishedTiles := stat.finishedTiles + 1
            remainTiles := stat.remainTiles - 1 }
          { s.sched with
            executableTileQueue := Function.update s.sched.executableTileQueue partition rest } }
      (h ++ [.barrier tile]) := by
  obtain rfl := elsewhere_eq hi.kept hq
  obtain ⟨past, orders, model₀, model, later, done, hw, -⟩ :=
    hi.working (mem_contents_of_waiting (hq ▸ List.mem_cons_self))
  have hu := hw.underway _ rfl
  obtain ⟨stat', hentry, hremain, hlaunched⟩ := hu.entry
  rw [TileScheduler.layerStat_of_single hentry] at hstat
  obtain rfl : stat' = stat := Option.some.inj hstat
  -- nothing runs
  have hruns : s.runs = 0 := Multiset.card_eq_zero.mp (by omega)
  have hidle : ∀ c, s.running c = [] := by
    intro c
    rcases Nat.lt_or_ge c s.sched.numCores with hc | hc
    · exact gather_eq_zero.mp hruns c hc
    · exact hi.kept.outside c hc
  generalize hs' : ({ s with sched := TileScheduler.setStat tile.layerId _ _ } : TileSystem τ) = s'
  have hcontents : s.contents = tile ::ₘ s'.contents := by
    rw [contents_of_waiting hq, ← hs']
    refine congrArg (tile ::ₘ ·) (congrArg₂ (· + ·) (congrArg₂ (· + ·) ?_ rfl) rfl)
    simp [TileScheduler.setStat]
  have hentry' : s'.sched.activeLayersMap = [(tile.layerId, { stat' with
      launchedTiles := stat'.launchedTiles + 1
      finishedTiles := stat'.finishedTiles + 1
      remainTiles := stat'.remainTiles - 1 })] := by
    rw [← hs']
    exact TileScheduler.setStat_of_single hentry
  have he : OfTiles [(.barrier tile : TileEvent τ)] := ⟨rfl, rfl, rfl, rfl⟩
  refine ⟨hi.kept.tile_step hw he ?_, .inr ⟨past, orders, model₀, model, later, done, _,
    hw.tile_step he (by rw [← hs']; rfl) (hu.step ⟨_, hentry', ?_, ?_⟩ ?_ ?_)⟩⟩
  · exact {
      numCores := by rw [← hs']; rfl
      partitions := by rw [← hs']; rfl
      idCounter := by rw [← hs']
      elsewhere := by rw [← hs']; exact elsewhere_update hi.kept rest
      outside := by rw [← hs']; exact hi.kept.outside
      issued := by rw [← hs']; exact hi.kept.issued
      cores := by
        rw [← hs']
        simpa [launchedOn, finishedOn] using hi.kept.cores
      others := by
        intro layer' hne
        simp [tilesDone, Ne.symm hne]
      launches := by
        intro before c t after heq
        rcases eq_or_of_split heq with hold | ⟨-, hv⟩
        · exact .inl hold
        · cases hv
      passes := by
        intro before t after heq
        rcases eq_or_of_split heq with hold | ⟨hbefore, -⟩
        · exact .inl hold
        · exact .inr ⟨hbefore, fun c => by simpa [hidle c] using hi.kept.cores c⟩ }
  · rw [hremain, hcontents, Multiset.card_cons]
    rfl
  · have hruns' : s'.runs = 0 := by
      rw [← hs']
      exact hruns
    rw [hruns', Multiset.card_zero, hall]
  · rw [hcontents, Multiset.map_cons]
    simp [tilesDone]
  · rw [hq, ← hs']
    simp only [TileScheduler.setStat, Function.update_self]
    exact List.suffix_cons _ _

/-- A tile ends. -/
theorem Inv.finish (hi : Inv setup s h) (hrun : (s.running core)[index]? = some tile)
    (hstat : s.sched.layerStat tile.layerId = some stat) :
    Inv setup
      { s with
        sched := s.sched.setStat tile.layerId
          { stat with
            remainTiles := stat.remainTiles - 1
            finishedTiles := stat.finishedTiles + 1 }
        running := Function.update s.running core ((s.running core).eraseIdx index) }
      (h ++ [.finished core tile]) := by
  have hcore : core < s.sched.numCores := by
    by_contra hge
    rw [hi.kept.outside core (Nat.le_of_not_lt hge)] at hrun
    cases hrun
  have hruns : s.runs = tile ::ₘ
      gather (Function.update s.running core ((s.running core).eraseIdx index))
        s.sched.numCores := gather_eraseIdx hcore hrun
  have hmem : tile ∈ s.contents :=
    mem_contents_of_runs (by rw [hruns]; exact Multiset.mem_cons_self _ _)
  obtain ⟨past, orders, model₀, model, later, done, hw, -⟩ := hi.working hmem
  have hu := hw.underway _ rfl
  obtain ⟨stat', hentry, hremain, hlaunched⟩ := hu.entry
  rw [TileScheduler.layerStat_of_single hentry] at hstat
  obtain rfl : stat' = stat := Option.some.inj hstat
  generalize hs' : ({ s with
      sched := s.sched.setStat tile.layerId _
      running := _ } : TileSystem τ) = s'
  have hruns' : s.runs = tile ::ₘ s'.runs := by
    rw [hruns, ← hs']
    rfl
  have hcontents : s.contents = tile ::ₘ s'.contents := by
    rw [contents, contents, hruns', ← hs', Multiset.add_cons]
    rfl
  have hentry' : s'.sched.activeLayersMap = [(tile.layerId, { stat' with
      remainTiles := stat'.remainTiles - 1
      finishedTiles := stat'.finishedTiles + 1 })] := by
    rw [← hs']
    exact TileScheduler.setStat_of_single hentry
  have he : OfTiles [(.finished core tile : TileEvent τ)] := ⟨rfl, rfl, rfl, rfl⟩
  refine ⟨hi.kept.tile_step hw he ?_, .inr ⟨past, orders, model₀, model, later, done, _,
    hw.tile_step he (by rw [← hs']; rfl) (hu.step ⟨_, hentry', ?_, ?_⟩ ?_ ?_)⟩⟩
  · exact {
      numCores := by rw [← hs']; rfl
      partitions := by rw [← hs']; rfl
      idCounter := by rw [← hs']
      elsewhere := by rw [← hs']; exact hi.kept.elsewhere
      outside := by rw [← hs']; exact outside_update hi.kept hcore _
      issued := by rw [← hs']; exact hi.kept.issued
      cores := by
        intro c
        have hold := hi.kept.cores c
        rw [launchedOn_append, finishedOn_append, ← hs']
        by_cases hc : c = core
        · subst hc
          obtain ⟨hlt, rfl⟩ := List.getElem?_eq_some_iff.mp hrun
          have hperm := List.getElem_cons_eraseIdx_perm hlt
          simpa [launchedOn, finishedOn] using hold.trans (hperm.symm.append_left _)
        · simpa [launchedOn, finishedOn, hc, Ne.symm hc] using hold
      others := by
        intro layer' hne
        simp [tilesDone, Ne.symm hne]
      launches := by
        intro before c t after heq
        rcases eq_or_of_split heq with hold | ⟨-, hv⟩
        · exact .inl hold
        · cases hv
      passes := by
        intro before t after heq
        rcases eq_or_of_split heq with hold | ⟨-, hv⟩
        · exact .inl hold
        · cases hv }
  · rw [hremain, hcontents, Multiset.card_cons]
    rfl
  · rw [hruns', Multiset.card_cons] at hlaunched
    dsimp only
    omega
  · rw [hcontents, Multiset.map_cons]
    simp [tilesDone]
  · rw [← hs']
    exact List.suffix_refl _

end TileRules

/-! ## 5. The rules that move a model or a layer -/

/-- Between two models: what is at the front is at its start. -/
theorem course_of_rest (hs : List.Forall₂ Served past orders) (hk : Kept setup s h)
    (hsched : scheduled h = past ++ s.sched.requestQueue)
    (hfin : modelsFinished h = past.map OperationGraph.id)
    (hstarted : layersStarted h = orders.flatten) (hdone : layersFinished h = orders.flatten)
    (hquiet : s.Quiet) :
    (∃ past orders, Idle s h past orders) ∨ ∃ past orders model₀ model later done active,
      Working s h past orders model₀ model later done active := by
  cases hq : s.sched.requestQueue with
  | nil =>
      rw [hq, List.append_nil] at hsched
      exact .inl ⟨past, orders, hs, hsched, hq, hfin, hstarted, hdone, hquiet⟩
  | cons model later =>
      rw [hq] at hsched
      have hI : model.Initialized := hk.initialized model
        (by rw [hsched]; exact List.mem_append_right _ List.mem_cons_self)
      refine .inr ⟨past, orders, model, model, later, [], none, ?_⟩
      exact {
        served := hs
        scheduled := hsched
        queue := hq
        finished := hfin
        front := .initial hI
        ready := WorkNet.readyOrder_nil
        nodup := List.nodup_nil
        started := hstarted.trans (List.append_nil _).symm
        done := hdone.trans (List.append_nil _).symm
        quiet := fun _ => hquiet
        underway := by
          intro layer hlayer
          cases hlayer }

/-- An event that is about a model or a layer. -/
def ofModel : TileEvent τ → Bool
  | .scheduled _ | .layerStarted _ _ | .layerFinished _ _ | .modelFinished _ => true
  | .launched _ _ | .barrier _ | .finished _ _ => false

/-- A model or a layer moves: the tiles stay as they are. -/
theorem Kept.model_step {v : TileEvent τ} (hk : Kept setup s h) (hv : ofModel v = true)
    (hn : s'.sched.numCores = s.sched.numCores) (hp : s'.sched.partitions = s.sched.partitions)
    (helse : ∀ partition, partition ≠ 0 → s'.sched.executableTileQueue partition = [])
    (hruns : s'.running = s.running) (hqueued : s'.queued = s.queued)
    (hinit : ∀ model ∈ scheduled (h ++ [v]), model.Initialized)
    (hgiven : ∀ model ∈ scheduled (h ++ [v]), ∀ id ∈ model.ids, id < s'.idCounter)
    (hdistinct : ((scheduled (h ++ [v])).flatMap OperationGraph.ids).Nodup)
    (haccount : ∀ model ∈ scheduled (h ++ [v]), ∀ layer ∈ model.ids,
      layer ∈ layersFinished (h ++ [v]) →
        (tilesDone layer h).Perm ((model.getTiles layer).map ScheduledTile.identity)) :
    Kept setup s' (h ++ [v]) := by
  have htiles : ∀ layer, tilesDone layer (h ++ [v]) = tilesDone layer h := by
    intro layer
    rw [tilesDone_append]
    cases v <;> first | exact List.append_nil _ | cases hv
  exact {
    numCores := hn.trans hk.numCores
    partitions := hp.trans hk.partitions
    elsewhere := helse
    outside := by
      rw [hn, hruns]
      exact hk.outside
    issued := hqueued ▸ hk.issued
    initialized := hinit
    given := hgiven
    distinct := hdistinct
    cores := by
      intro core
      have hold := hk.cores core
      rw [launchedOn_append, finishedOn_append, hruns]
      cases v <;> first | simpa [launchedOn, finishedOn] using hold | cases hv
    account := by
      intro model hmodel layer hid hfin
      rw [htiles]
      exact haccount model hmodel layer hid hfin
    untouched := by
      intro layer hlayer
      rw [layersStarted_append] at hlayer
      rw [htiles]
      exact hk.untouched layer fun hmem => hlayer (List.mem_append_left _ hmem)
    during := by
      intro before c t after heq
      rcases eq_or_of_split heq with ⟨after', hold⟩ | ⟨-, rfl⟩
      · exact hk.during before c t after' hold
      · cases hv
    still := by
      intro before t after heq
      rcases eq_or_of_split heq with ⟨after', hold⟩ | ⟨-, rfl⟩
      · exact hk.still before t after' hold
      · cases hv }

/-- The same where no model comes: what was scheduled stays. -/
theorem Kept.model_moves {v : TileEvent τ} (hk : Kept setup s h) (hv : ofModel v = true)
    (hn : s'.sched.numCores = s.sched.numCores) (hp : s'.sched.partitions = s.sched.partitions)
    (helse : ∀ partition, partition ≠ 0 → s'.sched.executableTileQueue partition = [])
    (hruns : s'.running = s.running) (hqueued : s'.queued = s.queued)
    (hids : s'.idCounter = s.idCounter) (hsched : scheduled (h ++ [v]) = scheduled h)
    (haccount : ∀ model ∈ scheduled h, ∀ layer ∈ model.ids, layer ∈ layersFinished (h ++ [v]) →
      (tilesDone layer h).Perm ((model.getTiles layer).map ScheduledTile.identity)) :
    Kept setup s' (h ++ [v]) := by
  refine hk.model_step hv hn hp helse hruns hqueued ?_ ?_ ?_ ?_
  · rw [hsched]
    exact hk.initialized
  · rw [hsched, hids]
    exact hk.given
  · rw [hsched]
    exact hk.distinct
  · rw [hsched]
    exact haccount

/-- What was finished belongs to a model that was scheduled. -/
theorem Inv.finished_known (hi : Inv setup s h) (hl : layer ∈ layersFinished h) :
    ∃ model ∈ scheduled h, layer ∈ model.ids := by
  rcases hi.course with ⟨past, orders, hidle⟩ |
    ⟨past, orders, model₀, model, later, done, active, hw⟩
  · rw [hidle.done, (flatten_perm hidle.served).mem_iff] at hl
    rw [hidle.scheduled]
    exact List.mem_flatMap.mp hl
  · rw [hw.scheduled]
    rw [hw.done, List.mem_append, (flatten_perm hw.served).mem_iff] at hl
    rcases hl with hl | hl
    · obtain ⟨model', hmem, hid⟩ := List.mem_flatMap.mp hl
      exact ⟨model', List.mem_append_left _ hmem, hid⟩
    · exact ⟨model₀, List.mem_append_right _ List.mem_cons_self,
        hw.mem_ids layer (List.mem_append_left _ hl)⟩

/-- A model is scheduled. -/
theorem Inv.schedule (hi : Inv setup s h) {next : Nat} (hI : model.Initialized)
    (hfresh : s.Fresh model next) :
    Inv setup
      { s with
        sched := { s.sched with requestQueue := s.sched.requestQueue ++ [model] }
        idCounter := next }
      (h ++ [.scheduled model]) := by
  have hnew : Ahasd.scheduled (h ++ [.scheduled model]) = Ahasd.scheduled h ++ [model] :=
    scheduled_append _ _
  have hdone : layersFinished (h ++ [(.scheduled model : TileEvent τ)]) = layersFinished h := by
    simp [layersFinished]
  have hkept : Kept setup
      { s with
        sched := { s.sched with requestQueue := s.sched.requestQueue ++ [model] }
        idCounter := next } (h ++ [.scheduled model]) := by
    refine hi.kept.model_step rfl rfl rfl hi.kept.elsewhere rfl rfl ?_ ?_ ?_ ?_
    · rw [hnew]
      intro model' hmodel'
      rcases List.mem_append.mp hmodel' with hold | hold
      · exact hi.kept.initialized model' hold
      · rwa [List.mem_singleton.mp hold]
    · rw [hnew]
      intro model' hmodel' id hid
      rcases List.mem_append.mp hmodel' with hold | hold
      · exact Nat.lt_of_lt_of_le (hi.kept.given model' hold id hid) hfresh.1
      · rw [List.mem_singleton.mp hold] at hid
        exact (hfresh.2 id hid).2
    · rw [hnew, List.flatMap_append]
      refine List.nodup_append.mpr ⟨hi.kept.distinct, by simpa using hI.nodup, ?_⟩
      intro a ha b hb heq
      obtain ⟨model', hmodel', hid⟩ := List.mem_flatMap.mp ha
      have hlt := hi.kept.given model' hmodel' a hid
      have hge := (hfresh.2 b (by simpa using hb)).1
      omega
    · rw [hnew, hdone]
      intro model' hmodel' layer hid hfin
      rcases List.mem_append.mp hmodel' with hold | hold
      · exact hi.kept.account model' hold layer hid hfin
      · -- its layers are new, so none of them is finished
        rw [List.mem_singleton.mp hold] at hid
        obtain ⟨model'', hmodel'', hid''⟩ := hi.finished_known hfin
        have hlt := hi.kept.given model'' hmodel'' layer hid''
        have hge := (hfresh.2 layer hid).1
        omega
  refine ⟨hkept, ?_⟩
  rcases hi.course with ⟨past, orders, hidle⟩ |
    ⟨past, orders, model₀, front, later, done, active, hw⟩
  · refine course_of_rest hidle.served hkept ?_ ?_ ?_ ?_ ⟨hidle.quiet.entries, hidle.quiet.tiles⟩
    · rw [hnew, hidle.scheduled, hidle.queue]
      rfl
    · simpa [modelsFinished] using hidle.finished
    · simpa [layersStarted] using hidle.started
    · rw [hdone, hidle.done]
  · refine .inr ⟨past, orders, model₀, front, later ++ [model], done, active, ?_⟩
    exact {
      served := hw.served
      scheduled := by
        rw [hnew, hw.scheduled, List.append_assoc]
        rfl
      queue := by
        rw [hw.queue]
        rfl
      finished := by simpa [modelsFinished] using hw.finished
      front := hw.front
      ready := hw.ready
      nodup := hw.nodup
      started := by simpa [layersStarted] using hw.started
      done := by rw [hdone, hw.done]
      quiet := fun hnone => ⟨(hw.quiet hnone).entries, (hw.quiet hnone).tiles⟩
      underway := by
        intro layer hlayer
        have hu := hw.underway layer hlayer
        refine ⟨hu.entry, ?_, hu.last⟩
        have htiles : tilesDone layer (h ++ [.scheduled model]) = tilesDone layer h := by
          simp [tilesDone]
        rw [htiles]
        exact hu.tiles }

/-- A model is finished. -/
theorem Inv.popModel (hi : Inv setup s h) (hq : s.sched.requestQueue = model :: later)
    (hfinish : model.checkFinish = true) :
    Inv setup { s with sched := { s.sched with requestQueue := later } }
      (h ++ [.modelFinished model.id]) := by
  have hsched : Ahasd.scheduled (h ++ [(.modelFinished model.id : TileEvent τ)]) =
      Ahasd.scheduled h := by
    simp [Ahasd.scheduled]
  have hdone' : layersFinished (h ++ [(.modelFinished model.id : TileEvent τ)]) =
      layersFinished h := by
    simp [layersFinished]
  have hkept : Kept setup { s with sched := { s.sched with requestQueue := later } }
      (h ++ [.modelFinished model.id]) :=
    hi.kept.model_moves rfl rfl rfl hi.kept.elsewhere rfl rfl rfl hsched
      (hdone' ▸ hi.kept.account)
  refine ⟨hkept, ?_⟩
  obtain ⟨past, orders, model₀, done, active, hw⟩ := hi.at_front hq
  have hall := hw.front.checkFinish_iff.mp hfinish
  -- a layer under way is not finished
  have hnone : active = none := by
    cases hactive : active with
    | none => rfl
    | some layer =>
        have hmem := hw.mem_ids layer (by simp [hactive])
        exact absurd (hall layer hmem) (hw.front.ready.apart layer hactive)
  subst hnone
  have hI := hw.initialized hi.kept
  have hserved : Served model₀ done := by
    refine ⟨(List.perm_ext_iff_of_nodup ?_ hI.nodup).mpr fun id => ⟨fun hid => ?_, hall id⟩, ?_⟩
    · simpa using hw.nodup
    · exact hw.mem_ids id (List.mem_append_left _ hid)
    · simpa using hw.ready
  refine course_of_rest (List.rel_append hw.served (.cons hserved .nil)) hkept ?_ ?_ ?_ ?_
    ⟨(hw.quiet rfl).entries, (hw.quiet rfl).tiles⟩
  · rw [hsched, hw.scheduled, List.append_assoc]
    rfl
  · rw [modelsFinished_append, hw.finished, List.map_append, hw.front.id]
    rfl
  · rw [layersStarted_append, hw.started, List.flatten_append]
    simp [layersStarted]
  · rw [hdone', hw.done, List.flatten_append]
    simp

/-- A layer that is not finished has not been started. -/
theorem Working.not_started (hw : Working s h past orders model₀ model later done none)
    (hk : Kept setup s h) (hid : layer ∈ model₀.ids) (hnot : layer ∉ done) :
    (done ++ [layer]).Nodup ∧ layer ∉ layersStarted h := by
  have hnow : (done ++ [layer]).Nodup := by
    refine List.nodup_append.mpr ⟨by simpa using hw.nodup, List.nodup_singleton _, ?_⟩
    intro a ha b hb heq
    rw [List.mem_singleton.mp hb] at heq
    exact hnot (heq ▸ ha)
  have hdistinct := hk.distinct
  rw [hw.scheduled] at hdistinct
  have hnodup := flatten_nodup hw.served hdistinct hnow fun id hmem => by
    rcases List.mem_append.mp hmem with hd | hd
    · exact hw.mem_ids id (List.mem_append_left _ hd)
    · rwa [List.mem_singleton.mp hd]
  rw [← List.append_assoc] at hnodup
  refine ⟨hnow, fun hmem => ?_⟩
  rw [hw.started] at hmem
  simp only [Option.toList_none, List.append_nil] at hmem
  exact (List.nodup_append.mp hnodup).2.2 layer hmem layer List.mem_cons_self rfl

/-- A layer starts. -/
theorem Inv.startLayer (hi : Inv setup s h) {rest : List Nat}
    (hq : s.sched.requestQueue = model :: later) (hactive : s.sched.activeLayersMap = [])
    (hx : model.executableLayer = layer :: rest) :
    Inv setup { s with sched := s.sched.started model later layer rest }
      (h ++ [.layerStarted model.id layer]) := by
  have hsched : Ahasd.scheduled (h ++ [(.layerStarted model.id layer : TileEvent τ)]) =
      Ahasd.scheduled h := by
    simp [Ahasd.scheduled]
  have hdone' : layersFinished (h ++ [(.layerStarted model.id layer : TileEvent τ)]) =
      layersFinished h := by
    simp [layersFinished]
  refine ⟨hi.kept.model_moves rfl rfl rfl (elsewhere_update hi.kept _) rfl rfl rfl hsched
    (hdone' ▸ hi.kept.account), ?_⟩
  obtain ⟨past, orders, model₀, done, hw⟩ := hi.at_rest hq hactive
  have hI := hw.initialized hi.kept
  have hquiet := hw.quiet rfl
  have hready := hw.front.ready
  rw [hx] at hready
  obtain ⟨hid, hnot, -, henabled⟩ := (hready.mem_iff layer).mp List.mem_cons_self
  obtain ⟨htiles, hfront⟩ := hw.front.begin hI hx
  obtain ⟨hnow, hfresh⟩ := hw.not_started hi.kept hid hnot
  obtain ⟨hempty, hqueued, hruns⟩ := contents_eq_zero.mp hquiet.tiles
  generalize hs' : ({ s with sched := s.sched.started model later layer rest } : TileSystem τ) = s'
  have hwaiting : s'.sched.executableTileQueue 0 = model₀.getTiles layer := by
    rw [← hs', ← htiles]
    simp only [TileScheduler.started, TileScheduler.setStat, Function.update_self, hempty,
      List.nil_append]
    rfl
  have hcontents : s'.contents = (model₀.getTiles layer : Multiset (ScheduledTile τ)) := by
    have hqueued' : s'.queued = 0 := by
      rw [← hs']
      exact hqueued
    have hruns' : s'.runs = 0 := by
      rw [← hs']
      exact hruns
    rw [contents, hwaiting, hqueued', hruns', add_zero, add_zero]
  have hentry : s'.sched.activeLayersMap = [(layer,
      { totalTiles := (model₀.getTiles layer).length
        remainTiles := (model₀.getTiles layer).length })] := by
    rw [← hs', ← htiles]
    simp only [TileScheduler.started, TileScheduler.setStat, hactive, hempty, List.nil_append,
      List.filter_nil]
    rfl
  refine .inr ⟨past, orders, model₀,
    OperationGraph.clearTiles layer { model with executableLayer := rest }, later, done,
    some layer, ?_⟩
  exact {
    served := hw.served
    scheduled := hsched.trans hw.scheduled
    queue := by rw [← hs']; rfl
    finished := by simpa [modelsFinished] using hw.finished
    front := hfront
    ready := by
      have hready := hw.ready
      rw [Option.toList_none, List.append_nil] at hready
      exact hready.snoc hid henabled
    nodup := hnow
    started := by
      rw [layersStarted_append, hw.started, Option.toList_none, List.append_nil,
        List.append_assoc]
      rfl
    done := hdone'.trans hw.done
    quiet := by
      intro hnone
      cases hnone
    underway := by
      intro layer' hlayer'
      cases hlayer'
      have hnothing : tilesDone layer (h ++ [.layerStarted model.id layer]) = [] := by
        rw [tilesDone_append, hi.kept.untouched layer hfresh]
        rfl
      refine ⟨⟨_, hentry, ?_, ?_⟩, ?_, ?_⟩
      · rw [hcontents, Multiset.coe_card]
      · have hruns' : s'.runs = 0 := by
          rw [← hs']
          exact hruns
        rw [hruns', Multiset.card_zero]
      · rw [hnothing, hcontents]
        exact zero_add _
      · rw [hwaiting] }

/-- A layer is finished. -/
theorem Inv.finishLayer (hi : Inv setup s h) {stat : LayerStat}
    (hq : s.sched.requestQueue = model :: later) (hstat : s.sched.layerStat layer = some stat)
    (hzero : stat.remainTiles = 0) :
    Inv setup
      { s with
        sched := TileScheduler.eraseStat layer
          { s.sched with requestQueue := model.setLayerFinish layer :: later } }
      (h ++ [.layerFinished model.id layer]) := by
  have hsched : Ahasd.scheduled (h ++ [(.layerFinished model.id layer : TileEvent τ)]) =
      Ahasd.scheduled h := by
    simp [Ahasd.scheduled]
  have hdone' : layersFinished (h ++ [(.layerFinished model.id layer : TileEvent τ)]) =
      layersFinished h ++ [layer] :=
    layersFinished_append _ _
  obtain ⟨past, orders, model₀, done, hw⟩ := hi.of_stat hq hstat
  have hI := hw.initialized hi.kept
  have hu := hw.underway layer rfl
  obtain ⟨stat', hentry, hremain, -⟩ := hu.entry
  rw [TileScheduler.layerStat_of_single hentry] at hstat
  obtain rfl : stat' = stat := Option.some.inj hstat
  have hcontents : s.contents = 0 := Multiset.card_eq_zero.mp (hremain.symm.trans hzero)
  have hall : (tilesDone layer h).Perm
      ((model₀.getTiles layer).map ScheduledTile.identity) := by
    have htiles := hu.tiles
    rw [hcontents, Multiset.map_zero, add_zero] at htiles
    exact Multiset.coe_eq_coe.mp htiles
  refine ⟨?_, .inr ⟨past, orders, model₀, model.setLayerFinish layer, later, done ++ [layer], none,
    ?_⟩⟩
  · refine hi.kept.model_moves rfl rfl rfl hi.kept.elsewhere rfl rfl rfl hsched ?_
    · rw [hdone']
      intro model' hmodel' layer' hid hfin
      rcases List.mem_append.mp hfin with hold | hnew
      · exact hi.kept.account model' hmodel' layer' hid hold
      · rw [List.mem_singleton.mp hnew] at hid ⊢
        rw [hw.owner hi.kept hmodel' hid (hw.mem_ids layer (by simp))]
        exact hall
  · exact {
      served := hw.served
      scheduled := hsched.trans hw.scheduled
      queue := rfl
      finished := by simpa [modelsFinished] using hw.finished
      front := hw.front.setLayerFinish hI
      ready := by simpa using hw.ready
      nodup := by simpa using hw.nodup
      started := by simpa [layersStarted] using hw.started
      done := by rw [hdone', hw.done, List.append_assoc]
      quiet := fun _ => ⟨by simp [TileScheduler.eraseStat, hentry], hcontents⟩
      underway := by
        intro layer hlayer
        cases hlayer }

/-- **Every rule keeps the invariant.** -/
theorem Rule.inv (hr : Rule s s' e) (hi : Inv setup s h) : Inv setup s' (h ++ e) := by
  cases hr with
  | schedule model next hI hfresh => exact hi.schedule hI hfresh
  | popModel model later hq hfinish => exact hi.popModel hq hfinish
  | startLayer model later layer rest hq _ hactive hx => exact hi.startLayer hq hactive hx
  | issue partition core tile rest hq hbar hcore => exact hi.issue hq hbar hcore
  | launch core tile rest stat hcore hq hstat => exact hi.launch hcore hq hstat
  | barrier partition tile rest stat hq _ hstat hall _ => exact hi.barrier hq hstat hall
  | finish core index tile stat hrun hstat _ => exact hi.finish hrun hstat
  | finishLayer model later layer stat hq hstat hzero => exact hi.finishLayer hq hstat hzero

end TileSystem

end Ahasd
