/-
  File:      Ahasd/Tiles/OperationGraph.lean
  Subject:   THE GRAPH OF OPERATIONS OF A MODEL (Model.cc, Operation.cc, Tensor.cc), as the tile
             scheduler sees it.

  An operation reads tensors and produces tensors; it may start when all it reads are produced. The
  model keeps the operations that may start in a list, in the order in which that became so.

  * `OperationGraph`: the model; `setLayerFinish`, `getExecutableTile`, `checkFinish`: what the
    scheduler calls;
  * `Initialized`: a model as `initialize_model` leaves it, with what holds of its graph;
  * `At`: the model after some of its layers; `At.start`, `At.finish`: the calls keep that;
  * `At.checkFinish`: with nothing started and nothing to start, the model is finished.
-/
import Ahasd.Lib.WorkNet
import Mathlib.Logic.Function.Basic

namespace Ahasd

/-! ## 1. Tiles, operations and models -/

/-- `Tile::Status`. -/
inductive TileStatus where
  | initialized
  | running
  | finish
  | bar
  | empty
  deriving DecidableEq, Repr

/-- `Tile`, the fields the scheduler reads; `work` is the rest of it. A `core_id` of -1 is `none`. -/
structure ScheduledTile (τ : Type) where
  status : TileStatus
  layerId : Nat
  coreId : Option Nat
  work : τ
  deriving DecidableEq, Repr

/-- The tile, whatever core it was given to. -/
def ScheduledTile.identity {τ : Type} (tile : ScheduledTile τ) : ScheduledTile τ :=
  { tile with coreId := none }

/-- `Operation`. -/
structure Operation (τ : Type) where
  id : Nat
  inputs : List Nat
  outputs : List Nat
  tiles : List (ScheduledTile τ)
  finish : Bool := false

/-- `Tensor`, the fields the graph needs. -/
structure GraphTensor where
  produced : Bool
  childNodes : List Nat

/-- `Model`. `_operation_map` is the list of its entries in the order of the ids. -/
structure OperationGraph (τ : Type) where
  id : Nat
  operationMap : List (Operation τ)
  tensorMap : Nat → GraphTensor
  executableLayer : List Nat := []

namespace OperationGraph

variable {τ : Type}

/-- The ids of the operations. -/
def ids (g : OperationGraph τ) : List Nat := g.operationMap.map Operation.id

/-- The operation of an id. -/
def getOperation (g : OperationGraph τ) (id : Nat) : Option (Operation τ) :=
  g.operationMap.find? fun op => op.id == id

/-- `check_executable`. -/
def checkExecutable (g : OperationGraph τ) (id : Nat) : Bool :=
  (g.getOperation id).any fun op => op.inputs.all fun t => (g.tensorMap t).produced

/-- The end of `initialize_model`: the operations that may start at once. -/
def initExecutable (g : OperationGraph τ) : OperationGraph τ :=
  { g with executableLayer := g.ids.filter g.checkExecutable }

/-- `set_finish`, of an operation: its outputs are produced. -/
def setFinish (id : Nat) (g : OperationGraph τ) : OperationGraph τ :=
  let outputs := ((g.getOperation id).map Operation.outputs).getD []
  { g with
    operationMap := g.operationMap.map fun op => if op.id = id then { op with finish := true } else op
    tensorMap := fun t =>
      if t ∈ outputs then { g.tensorMap t with produced := true } else g.tensorMap t }

/-- `get_child_nodes`. -/
def getChildNodes (g : OperationGraph τ) (id : Nat) : List Nat :=
  (((g.getOperation id).map Operation.outputs).getD []).flatMap fun t => (g.tensorMap t).childNodes

/-- `set_layer_finish`. -/
def setLayerFinish (id : Nat) (g : OperationGraph τ) : OperationGraph τ :=
  let g := g.setFinish id
  { g with
    executableLayer := WorkNet.addMissing g.checkExecutable (g.getChildNodes id) g.executableLayer }

/-- `get_executable_tile`: the next layer. -/
def getExecutableTile (g : OperationGraph τ) : Option (Nat × OperationGraph τ) :=
  match g.executableLayer with
  | [] => none
  | id :: rest => some (id, { g with executableLayer := rest })

/-- `get_tiles`. -/
def getTiles (g : OperationGraph τ) (id : Nat) : List (ScheduledTile τ) :=
  ((g.getOperation id).map Operation.tiles).getD []

/-- `clear_tiles`. -/
def clearTiles (id : Nat) (g : OperationGraph τ) : OperationGraph τ :=
  { g with
    operationMap := g.operationMap.map fun op => if op.id = id then { op with tiles := [] } else op }

/-- `check_finish`. -/
def checkFinish (g : OperationGraph τ) : Bool := g.operationMap.all Operation.finish

/-! ## 2. What holds of an initialized model -/

/-- The graph as a net: tensors are the resources. -/
def net (g : OperationGraph τ) : WorkNet Nat Nat where
  nodes := g.ids
  needs id t := ∃ op ∈ g.operationMap, op.id = id ∧ t ∈ op.inputs
  gives id t := ∃ op ∈ g.operationMap, op.id = id ∧ t ∈ op.outputs
  given t := (g.tensorMap t).produced = true

/-- **A model that has just been initialized**: ids are different; a tensor knows who reads it;
    nothing waits for itself; and every operation has tiles, which carry its id. -/
structure Initialized (g : OperationGraph τ) : Prop where
  nodup : g.ids.Nodup
  children : ∀ t id, id ∈ (g.tensorMap t).childNodes ↔ g.net.needs id t
  ordered : g.net.Ordered
  unfinished : ∀ op ∈ g.operationMap, op.finish = false
  tiles : ∀ op ∈ g.operationMap, op.tiles ≠ [] ∧ ∀ tile ∈ op.tiles, tile.layerId = op.id ∧
    (tile.status = .initialized ∨ tile.status = .bar)
  executable : g.executableLayer = g.ids.filter g.checkExecutable

/-! ## 3. A model after some of its layers -/

/-- An operation after some layers: it is finished, and its tiles are handed out. -/
def afterLayers (done : List Nat) (active : Option Nat) (op : Operation τ) : Operation τ :=
  { op with
    finish := decide (op.id ∈ done)
    tiles := if op.id ∈ done ∨ active = some op.id then [] else op.tiles }

/-- The operations and tensors of `g` are those of `g₀` after the layers `done`. -/
structure Reflects (g₀ g : OperationGraph τ) (done : List Nat) (active : Option Nat) : Prop where
  id : g.id = g₀.id
  operations : g.operationMap = g₀.operationMap.map (afterLayers done active)
  children : ∀ t, (g.tensorMap t).childNodes = (g₀.tensorMap t).childNodes
  produced : ∀ t, (g.tensorMap t).produced = true ↔ g₀.net.Available (· ∈ done) t

/-- `g` is the model `g₀` after the layers `done`, with a layer under way. -/
structure At (g₀ g : OperationGraph τ) (done : List Nat) (active : Option Nat) : Prop
    extends Reflects g₀ g done active where
  ready : g₀.net.Ready (· ∈ done) active g.executableLayer

variable {g₀ g : OperationGraph τ} {done : List Nat} {active : Option Nat} {l : Nat}

@[simp] theorem afterLayers_id (op : Operation τ) : (afterLayers done active op).id = op.id := rfl

/-- An operation is found by its id. -/
theorem find_of_mem {op : Operation τ} : ∀ {ops : List (Operation τ)},
    (ops.map Operation.id).Nodup → op ∈ ops → ops.find? (fun o => o.id == op.id) = some op := by
  intro ops
  induction ops with
  | nil => exact fun _ h => nomatch h
  | cons first rest ih =>
      intro hnodup h
      obtain ⟨hnot, hrest⟩ := List.nodup_cons.mp hnodup
      rcases List.mem_cons.mp h with rfl | hmem
      · exact List.find?_cons_of_pos (beq_self_eq_true _)
      · have hne : first.id ≠ op.id := fun heq => hnot (heq ▸ List.mem_map_of_mem hmem)
        rw [List.find?_cons_of_neg (by simpa using hne)]
        exact ih hrest hmem

theorem getOperation_of_mem (hI : g₀.Initialized) {op : Operation τ} (h : op ∈ g₀.operationMap) :
    g₀.getOperation op.id = some op :=
  find_of_mem hI.nodup h

/-- The operation of an id that is there. -/
theorem exists_of_mem_ids {id : Nat} (h : id ∈ g₀.ids) : ∃ op ∈ g₀.operationMap, op.id = id :=
  List.mem_map.mp h

section Reached

variable (h : Reflects g₀ g done active)
include h

theorem Reflects.getOperation_eq (id : Nat) :
    g.getOperation id = (g₀.getOperation id).map (afterLayers done active) := by
  rw [getOperation, h.operations, List.find?_map]
  rfl

/-- An operation that is there, after the layers. -/
theorem Reflects.getOperation (hI : g₀.Initialized) {op : Operation τ} (hop : op ∈ g₀.operationMap) :
    g.getOperation op.id = some (afterLayers done active op) := by
  rw [h.getOperation_eq, getOperation_of_mem hI hop]
  rfl

/-- **`check_executable` says whether all that an operation reads is produced.** -/
theorem Reflects.checkExecutable_iff (hI : g₀.Initialized) {id : Nat} (hid : id ∈ g₀.ids) :
    g.checkExecutable id = true ↔ g₀.net.Enabled (· ∈ done) id := by
  obtain ⟨op, hop, rfl⟩ := exists_of_mem_ids hid
  rw [checkExecutable, h.getOperation hI hop, Option.any_some, List.all_eq_true]
  constructor
  · rintro hall t ⟨op', hop', hid', ht⟩
    have heq := getOperation_of_mem hI hop'
    rw [hid', getOperation_of_mem hI hop] at heq
    cases heq
    exact (h.produced t).mp (hall t ht)
  · intro hen t ht
    exact (h.produced t).mpr (hen t ⟨op, hop, rfl, ht⟩)

/-- `check_finish` says whether all operations are finished. -/
theorem Reflects.checkFinish_iff : g.checkFinish = true ↔ ∀ id ∈ g₀.ids, id ∈ done := by
  rw [checkFinish, h.operations, List.all_map, List.all_eq_true]
  constructor
  · intro hall id hid
    obtain ⟨op, hop, rfl⟩ := exists_of_mem_ids hid
    exact of_decide_eq_true (hall op hop)
  · exact fun hall op hop => decide_eq_true (hall op.id (List.mem_map_of_mem hop))

end Reached

/-- A model is finished, or a layer of it is under way or may start. -/
theorem At.executable_ne_nil (hI : g₀.Initialized) (h : At g₀ g done none)
    (hnot : g.checkFinish = false) : g.executableLayer ≠ [] := by
  intro hnil
  have hready := h.ready
  rw [hnil] at hready
  have hall := h.checkFinish_iff.mpr (hready.all_done hI.ordered)
  rw [hnot] at hall
  cases hall

/-- What an operation gives. -/
theorem gives_iff (hI : g₀.Initialized) {op : Operation τ} (hop : op ∈ g₀.operationMap) (t : Nat) :
    g₀.net.gives op.id t ↔ t ∈ op.outputs := by
  constructor
  · rintro ⟨op', hop', hid', ht⟩
    have heq := getOperation_of_mem hI hop'
    rw [hid', getOperation_of_mem hI hop] at heq
    cases heq
    exact ht
  · exact fun ht => ⟨op, hop, rfl, ht⟩

/-- **A model at its start.** -/
theorem At.initial (hI : g₀.Initialized) : At g₀ g₀ [] none := by
  have hr : Reflects g₀ g₀ [] none := by
    refine ⟨rfl, ?_, fun _ => rfl, fun t => by simp [WorkNet.Available, net]⟩
    refine (List.map_id _).symm.trans (List.map_congr_left fun op hop => ?_)
    simp [afterLayers, (hI.unfinished op hop).symm]
  refine ⟨hr, .init (fun n => List.not_mem_nil) (hI.executable ▸ hI.nodup.filter _) fun id => ?_⟩
  rw [hI.executable, List.mem_filter]
  exact and_congr_right fun hid => hr.checkExecutable_iff hI hid

/-- **A layer starts**: it is the first that may, its tiles are those of the operation, and they
    are handed out. -/
theorem At.begin {rest : List Nat} (hI : g₀.Initialized) (h : At g₀ g done none)
    (hx : g.executableLayer = l :: rest) :
    g.getTiles l = g₀.getTiles l ∧
      At g₀ (clearTiles l { g with executableLayer := rest }) done (some l) := by
  have hready := h.ready
  rw [hx] at hready
  have hl := (hready.mem_iff l).mp List.mem_cons_self
  obtain ⟨op, hop, rfl⟩ := exists_of_mem_ids hl.1
  constructor
  · rw [getTiles, getTiles, h.getOperation hI hop, getOperation_of_mem hI hop]
    simp [afterLayers, hl.2.1]
  · refine ⟨⟨h.id, ?_, h.children, h.produced⟩, hready.start⟩
    rw [clearTiles, h.operations, List.map_map]
    refine List.map_congr_left fun op' _ => ?_
    by_cases heq : op'.id = op.id
    · simp [afterLayers, heq]
    · simp [afterLayers, heq, Ne.symm heq]

/-- A finished operation has given what it gives. -/
theorem Reflects.setFinish (hI : g₀.Initialized) (h : Reflects g₀ g done (some l)) (hl : l ∈ g₀.ids) :
    Reflects g₀ (g.setFinish l) (done ++ [l]) none := by
  obtain ⟨op, hop, rfl⟩ := exists_of_mem_ids hl
  refine ⟨h.id, ?_, fun t => ?_, fun t => ?_⟩
  · rw [OperationGraph.setFinish, h.operations, List.map_map]
    refine List.map_congr_left fun op' _ => ?_
    by_cases heq : op'.id = op.id
    · simp [afterLayers, heq]
    · simp [afterLayers, heq, Ne.symm heq]
  · rw [← h.children t, OperationGraph.setFinish]
    dsimp only
    split <;> rfl
  · have hproduced : ((g.setFinish op.id).tensorMap t).produced = true ↔
        t ∈ op.outputs ∨ (g.tensorMap t).produced = true := by
      simp only [OperationGraph.setFinish, h.getOperation hI hop, Option.map_some,
        Option.getD_some, afterLayers]
      by_cases ht : t ∈ op.outputs <;> simp [ht]
    rw [hproduced, h.produced t, ← gives_iff hI hop t]
    constructor
    · rintro (hgives | hav)
      · exact .inr ⟨op.id, List.mem_map_of_mem hop, List.mem_append_right _ List.mem_cons_self,
          hgives⟩
      · exact hav.mono fun _ => List.mem_append_left _
    · rintro (hgiven | ⟨k, hk, hdone, hgives⟩)
      · exact .inr (.inl hgiven)
      · rcases List.mem_append.mp hdone with hd | hd
        · exact .inr (.inr ⟨k, hk, hd, hgives⟩)
        · rw [List.mem_singleton.mp hd] at hgives
          exact .inl hgives

/-- **A layer is finished**: what it gives is produced, and what waited for that may start. -/
theorem At.setLayerFinish (hI : g₀.Initialized) (h : At g₀ g done (some l)) :
    At g₀ (g.setLayerFinish l) (done ++ [l]) none := by
  have hl := h.ready.legal l (.inr rfl)
  have hr := h.toReflects.setFinish hI hl.1
  refine ⟨⟨hr.id, hr.operations, hr.children, hr.produced⟩, ?_⟩
  have hfinish : g₀.net.Ready (fun k => k ∈ done ∨ k = l) none
      (g.setLayerFinish l).executableLayer := by
    refine h.ready.finish hI.ordered (WorkNet.nodup_addMissing h.ready.nodup) fun n => ?_
    -- the children of the layer are those that read what it gives
    have hchild : n ∈ (g.setFinish l).getChildNodes l ↔
        ∃ r, g₀.net.gives l r ∧ g₀.net.needs n r := by
      obtain ⟨op, hop, rfl⟩ := exists_of_mem_ids hl.1
      rw [getChildNodes, hr.getOperation hI hop, Option.map_some, Option.getD_some,
        List.mem_flatMap]
      refine exists_congr fun t => ?_
      rw [gives_iff hI hop t, ← hI.children t n, ← hr.children t]
      rfl
    have hnode : (∃ r, g₀.net.gives l r ∧ g₀.net.needs n r) → n ∈ g₀.ids := by
      rintro ⟨r, -, op, hop, rfl, -⟩
      exact List.mem_map_of_mem hop
    rw [OperationGraph.setLayerFinish, WorkNet.mem_addMissing, hchild]
    refine or_congr_right ⟨fun ⟨hwaits, hex⟩ => ?_, fun ⟨hn, hwaits, hen⟩ => ?_⟩
    · have hen := (hr.checkExecutable_iff hI (hnode hwaits)).mp hex
      exact ⟨hnode hwaits, hwaits, by simpa only [List.mem_append, List.mem_singleton] using hen⟩
    · refine ⟨hwaits, (hr.checkExecutable_iff hI hn).mpr ?_⟩
      simpa only [List.mem_append, List.mem_singleton] using hen
  simpa only [List.mem_append, List.mem_singleton] using hfinish

end OperationGraph

end Ahasd
