/-
  File:      Ahasd/LanguageModel.lean
  Subject:   TENSORS, INFERENCE MODELS AND THEIR KEY/VALUE CACHE (Common.cc, Tensor.cc,
             LanguageModel.cc, KVCacheConcat.cc).

  An inference is a `Model`: the requests of its batch and a copy of their cache tensors, taken when
  the model is generated.

  * `Globals`: the two static counters every component draws from (ids and addresses);
  * `LanguageModel.generateModel`: copies the cache tensors of a batch under a fresh model id;
  * `KVCacheConcat.outputDims`: the dimensions attention reads, one row per token of the step added.
-/
import Ahasd.SSRC

namespace Ahasd

/-! ## 1. Static counters -/

/-- The `static` counters of `Common.cc`. Ids are not wrapped: no run draws 2^32 of them. -/
structure Globals where
  idCounter : Nat := 0
  baseAddr : Nat := 0
  deriving DecidableEq, Repr

namespace Globals

/-- `generate_id`. -/
def generateId (g : Globals) : Nat × Globals :=
  (g.idCounter, { g with idCounter := g.idCounter + 1 })

/-- `allocate_address`: 256-byte aligned, and the next base is past the end of this block. -/
def allocateAddress (g : Globals) (size : Nat) : Nat × Globals :=
  let offset := if g.baseAddr % 256 ≠ 0 then 256 - g.baseAddr % 256 else 0
  let base := g.baseAddr + (size + offset)
  (g.baseAddr + offset, { g with baseAddr := base + (256 - base % 256) })

end Globals

/-! ## 2. Tensors -/

/-- `Tensor`, the fields the schedulers and the cache operation read. -/
structure Tensor where
  id : Nat
  dims : List Nat
  precision : Nat
  produced : Bool
  address : Nat
  size : Nat
  deriving DecidableEq, Repr

namespace Tensor

/-- The constructor from dimensions, with `allocate_tensor` (its size is 32-bit). -/
def create (g : Globals) (dims : List Nat) (precision : Nat) (produced : Bool) :
    Tensor × Globals :=
  let (id, g) := g.generateId
  let size := dims.foldl (· * ·) 1 * precision % 2 ^ 32
  let (address, g) := g.allocateAddress size
  (⟨id, dims, precision, produced, address, size⟩, g)

/-- `resize_tensor`: new dimensions, the address stays. -/
def resizeTensor (t : Tensor) (dims : List Nat) : Tensor :=
  { t with dims := dims, size := u64 (dims.foldl (· * ·) t.precision) }

/-- `set_produced`. -/
def setProduced (t : Tensor) : Tensor :=
  { t with produced := true }

@[simp] theorem setProduced_dims (t : Tensor) : t.setProduced.dims = t.dims := rfl

end Tensor

/-! ## 3. Inference models -/

/-- `LangInput`: one request of a batch, with the cache tensors it points to. -/
structure LangInput where
  requestId : Nat
  seqLength : Nat
  contextLength : Nat
  specTaskType : Nat := 0
  keyCache : List Tensor
  valueCache : List Tensor
  deriving DecidableEq, Repr

/-- A generated inference: its batch and its own copies of the cache tensors, per batch entry and
    layer. -/
structure Model where
  id : Nat
  reqs : List LangInput
  keyCacheTensors : List (List Tensor)
  valueCacheTensors : List (List Tensor)
  deriving DecidableEq, Repr

/-- A language model as it is registered: its configuration and the sizes of its weights and
    activations. -/
structure LanguageModel where
  numHiddenLayers : Nat
  pipelineParallelSize : Nat := 1
  numAttentionHeads : Nat
  numKvHeads : Nat
  hiddenSize : Nat
  maxSeqLength : Nat
  runSingleLayer : Bool := false
  wgtSize : Nat := 0
  actSize : Nat := 0

namespace LanguageModel

/-- `_num_layers`. -/
def numLayers (m : LanguageModel) : Nat :=
  m.numHiddenLayers / m.pipelineParallelSize

/-- `_num_sim_layers`. -/
def numSimLayers (m : LanguageModel) : Nat :=
  if m.runSingleLayer then 1 else m.numLayers

/-- The cache copies of one batch entry. -/
def loadCache (m : LanguageModel) (cache : List Tensor) : List Tensor :=
  (cache.take m.numSimLayers).map Tensor.setProduced

/-- `generate_model`. It indexes every cache up to its own number of layers: on a shorter cache it
    reads past the end, and there is no model. -/
def generateModel (m : LanguageModel) (reqs : List LangInput) (g : Globals) :
    Option (Model × Globals) :=
  if reqs.all fun r =>
      decide (m.numSimLayers ≤ r.keyCache.length ∧ m.numSimLayers ≤ r.valueCache.length) then
    let (id, g) := g.generateId
    some
      ({ id := id
         reqs := reqs
         keyCacheTensors := reqs.map fun r => m.loadCache r.keyCache
         valueCacheTensors := reqs.map fun r => m.loadCache r.valueCache }, g)
  else none

/-- **What a generated model is**: the next id, the batch, and copies of its caches. -/
theorem generateModel_spec {m : LanguageModel} {reqs : List LangInput} {g g' : Globals}
    {model : Model} (h : m.generateModel reqs g = some (model, g')) :
    model.id = g.idCounter ∧ g'.idCounter = g.idCounter + 1 ∧ model.reqs = reqs ∧
      model.keyCacheTensors = reqs.map (fun r => m.loadCache r.keyCache) ∧
      model.valueCacheTensors = reqs.map (fun r => m.loadCache r.valueCache) := by
  unfold generateModel at h
  split at h
  · simp only [Globals.generateId, Option.some.injEq, Prod.mk.injEq] at h
    obtain ⟨rfl, rfl⟩ := h
    exact ⟨rfl, rfl, rfl, rfl, rfl⟩
  · cases h

end LanguageModel

/-! ## 4. The cache as attention sees it -/

namespace KVCacheConcat

/-- `KVCacheConcat::initialize_tiles`: the dimensions given to a key or value output. The tokens of
    the step (`input_token_lengths`, the batch's sequence lengths) are added to the rows of the
    cache tensor. -/
def outputDims (cacheDims : List Nat) (inputTokenLength : Nat) : List Nat :=
  cacheDims.modify 0 (· + inputTokenLength)

/-- The rows of the key and value outputs of a model, per layer, for a batch of one request. -/
def outputRows (model : Model) : List (Option Nat × Option Nat) :=
  match model.reqs, model.keyCacheTensors, model.valueCacheTensors with
  | [input], [keys], [values] =>
      (keys.zip values).map fun kv =>
        ((outputDims kv.1.dims input.seqLength)[0]?, (outputDims kv.2.dims input.seqLength)[0]?)
  | _, _, _ => []

end KVCacheConcat

end Ahasd
