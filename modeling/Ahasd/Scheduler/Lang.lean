/-
  File:      Ahasd/Scheduler/Lang.lean
  Subject:   THE BASE LANGUAGE SCHEDULER (LanguageScheduler.cc): requests, their cache tensors,
             admission, and the single-model batches the fallback path runs.

  `std::map` is an ordered map, so a loop over it visits the keys in increasing order. Lengths and
  counters are naturals: the loader keeps every target length below 2^31 and no length passes the
  larger of its target and one step more, so nothing wraps. A call that has no defined behaviour
  (a null request, a cache read past its end) or that ends the process returns `none`.

  * `parseRequestTrace`, `initRequest`, `admitLoop`: from trace rows to active requests;
  * `initInputsAndModel`, `LangScheduler.cycle`, `LangScheduler.finishModel`: the base scheduler;
  * `resizeCache_cacheRows`: the length a resize leaves behind.
-/
import Ahasd.Config
import Ahasd.LanguageModel

namespace Ahasd

open Std

/-! ## 1. Requests and events -/

/-- `LangTaskType`. -/
inductive LangTaskType where
  | autoreg
  | prompt
  | draft
  | verify
  | preVerify
  deriving DecidableEq, Repr

/-- The enumeration's value, as `spec_task_type` carries it. -/
def LangTaskType.code : LangTaskType → Nat
  | autoreg => 0
  | prompt => 1
  | draft => 2
  | verify => 3
  | preVerify => 4

/-- `LangSpecPhase`. -/
inductive LangSpecPhase where
  | promptPending
  | draftRoundStart
  | drafting
  | awaitVerify
  | done
  deriving DecidableEq, Repr

/-- The role of a model: `"single"`, `"draft"` or `"target"`. -/
inductive ModelRole where
  | single
  | draft
  | target
  deriving DecidableEq, Repr

/-- `LangRequest`. -/
structure LangRequest where
  requestId : Nat
  running : Bool := false
  genPhase : Bool := false
  requestTime : Nat
  startTime : Nat := 0
  finishTime : Nat := 0
  promptLength : Nat
  currentLength : Nat
  targetLength : Nat
  keyCache : List Tensor := []
  valueCache : List Tensor := []
  specPhase : LangSpecPhase := .promptPending
  specRound : Nat := 0
  plannedDraftLength : Nat := 0
  draftedInRound : Nat := 0
  verifyRoundId : Nat := 0
  lastTaskType : LangTaskType := .autoreg
  deriving DecidableEq, Repr

/-- `LangStepEvent`. -/
structure LangStepEvent where
  requestId : Nat
  promptLength : Nat
  previousLength : Nat
  currentLength : Nat
  targetLength : Nat
  generatedTokens : Nat
  wasGenerationPhase : Bool
  taskType : LangTaskType := .autoreg
  modelRole : ModelRole := .single
  draftLength : Nat := 0
  acceptedLength : Nat := 0
  specRound : Nat := 0
  avgEntropy : ℚ := 0
  deriving DecidableEq

namespace LangRequest

/-- The loop that resizes every key and value tensor of a request (one per simulated layer). -/
def resizeCache (r : LangRequest) (dims : List Nat) : LangRequest :=
  { r with
    keyCache := r.keyCache.map (·.resizeTensor dims)
    valueCache := r.valueCache.map (·.resizeTensor dims) }

/-- Every cache tensor of the request has `rows` rows, one key and one value tensor for each of
    `layers` layers. -/
structure CacheRows (r : LangRequest) (layers rows : Nat) : Prop where
  keyLayers : r.keyCache.length = layers
  valueLayers : r.valueCache.length = layers
  keyRows : ∀ t ∈ r.keyCache, t.dims[0]? = some rows
  valueRows : ∀ t ∈ r.valueCache, t.dims[0]? = some rows

/-- **A resize sets the rows of every cache tensor.** -/
theorem resizeCache_cacheRows {r : LangRequest} {layers rows : Nat} (rows' width : Nat)
    (h : r.CacheRows layers rows) : (r.resizeCache [rows', width]).CacheRows layers rows' := by
  refine ⟨?_, ?_, ?_, ?_⟩
  · simpa [resizeCache] using h.keyLayers
  · simpa [resizeCache] using h.valueLayers
  · intro t ht
    obtain ⟨t', _, rfl⟩ := List.mem_map.mp ht
    rfl
  · intro t ht
    obtain ⟨t', _, rfl⟩ := List.mem_map.mp ht
    rfl

end LangRequest

/-! ## 2. The trace loader -/

/-- A row of the request trace, its four numbers read. -/
structure RequestRow where
  time : Nat
  promptLength : Nat
  generationLength : Nat
  cachedLength : Nat
  deriving DecidableEq, Repr

/-- `cached + prompt + generation`, the target length of a row. -/
def RequestRow.targetLength (row : RequestRow) : Nat :=
  row.cachedLength + row.promptLength + row.generationLength

/-- The row loop of `parse_request_trace`: ids count up, arrival times accumulate. -/
def parseRows : Nat → Nat → List RequestRow → List LangRequest
  | _, _, [] => []
  | id, timeOffset, row :: rows =>
      let timeOffset := u64 (timeOffset + row.time)
      { requestId := id
        requestTime := timeOffset
        promptLength := row.promptLength
        targetLength := row.targetLength
        currentLength := row.cachedLength } :: parseRows (id + 1) timeOffset rows

/-- `parse_request_trace`. The lengths go through `int` (`std::stoi`, an `int` sum): a row that does
    not fit is not read. -/
def parseRequestTrace (rows : List RequestRow) : Option (List LangRequest) :=
  if rows.all fun row => decide (row.targetLength < 2 ^ 31) then some (parseRows 0 0 rows)
  else none

/-! ## 3. The scheduler -/

/-- The `scheduler_config` object of a model registration. -/
structure SchedulerConfig where
  maxBatchSize : Option Nat := none
  checkMemSize : Option Bool := none
  defaultDraftLength : Option Nat := none
  deriving Repr

/-- `LangScheduler`, with the static counters it draws from. -/
structure LangScheduler where
  config : SimulationConfig
  languageModel : LanguageModel
  requestQueue : List LangRequest
  activeRequests : TreeMap Nat LangRequest := ∅
  requestsInModel : TreeMap Nat (List Nat) := ∅
  modelQueue : List Model := []
  lastFinishedEvents : List LangStepEvent := []
  /-- `_cycle` -/
  cycleCount : Nat := 0
  numLayers : Nat
  numSimLayers : Nat
  cacheDim : Nat
  maxDims : List Nat
  maxBatchSize : Nat
  runSingleLayer : Bool
  checkMemSize : Bool
  globals : Globals := {}

namespace LangScheduler

/-- The constructor, with the rows of the trace file. -/
def new (model : LanguageModel) (config : SimulationConfig) (schedulerConfig : SchedulerConfig)
    (rows : List RequestRow) (globals : Globals) : Option LangScheduler :=
  match parseRequestTrace rows with
  | none => none
  | some queue =>
      let cacheDim := model.hiddenSize / model.numAttentionHeads * model.numKvHeads
      some
        { config := config
          languageModel := model
          requestQueue := queue
          numLayers := model.numLayers
          numSimLayers := model.numSimLayers
          cacheDim := cacheDim
          maxDims := [model.maxSeqLength, cacheDim]
          maxBatchSize := schedulerConfig.maxBatchSize.getD 0
          runSingleLayer := model.runSingleLayer
          checkMemSize := schedulerConfig.checkMemSize.getD true
          globals := globals }

/-- `can_schedule_model`. -/
def canScheduleModel (s : LangScheduler) : Bool := !s.modelQueue.isEmpty

/-- `pop_model`: on an empty queue there is no model to move out. -/
def popModel (s : LangScheduler) : Option (Model × LangScheduler) :=
  match s.modelQueue with
  | [] => none
  | model :: rest => some (model, { s with modelQueue := rest })

/-- `busy`. -/
def busy (s : LangScheduler) : Bool :=
  !s.modelQueue.isEmpty || !s.activeRequests.isEmpty || !s.requestQueue.isEmpty

/-- `get_kv_memory_size`. -/
def getKvMemorySize (s : LangScheduler) : Nat :=
  let size := (s.activeRequests.toList.map fun kv =>
    ((kv.2.keyCache.take s.numSimLayers).map Tensor.size).sum +
      ((kv.2.valueCache.take s.numSimLayers).map Tensor.size).sum).sum
  u64 (if s.runSingleLayer then size * s.numLayers else size)

/-! ## 4. Admission -/

/-- The layer loop of `init_request`: a key and a value tensor of `maxDims`, cut to `firstDims`. -/
def initCaches (maxDims firstDims : List Nat) (precision : Nat) :
    Nat → Globals → (List Tensor × List Tensor) × Globals
  | 0, g => (([], []), g)
  | layers + 1, g =>
      let (key, g) := Tensor.create g maxDims precision true
      let (value, g) := Tensor.create g maxDims precision true
      let ((keys, values), g) := initCaches maxDims firstDims precision layers g
      ((key.resizeTensor firstDims :: keys, value.resizeTensor firstDims :: values), g)

/-- `init_request`. -/
def initRequest (s : LangScheduler) (r : LangRequest) : LangRequest × Globals :=
  let ((keys, values), g) := initCaches s.maxDims [r.currentLength, s.cacheDim] s.config.precision
    s.numSimLayers s.globals
  ({ r with
      startTime := s.cycleCount
      genPhase := false
      running := false
      keyCache := keys
      valueCache := values }, g)

/-- One admission: the front request is initialised, prepared and becomes active. -/
def admitOne (prepare : LangRequest → LangRequest) (s : LangScheduler) (r : LangRequest)
    (rest : List LangRequest) : LangScheduler :=
  { s with
    activeRequests := s.activeRequests.insert r.requestId (prepare (s.initRequest r).1)
    requestQueue := rest
    globals := (s.initRequest r).2 }

/-- The admission loop over the request queue: stops at a request that has not arrived, and after
    an admission that fills the batch. -/
def admitLoop (prepare : LangRequest → LangRequest) : List LangRequest → LangScheduler → LangScheduler
  | [], s => s
  | r :: rest, s =>
      if r.requestTime ≤ s.cycleCount then
        let s := s.admitOne prepare r rest
        if s.maxBatchSize > 0 ∧ s.activeRequests.size ≥ s.maxBatchSize then s
        else admitLoop prepare rest s
      else s

/-- What the admission of one request keeps, the loop keeps. -/
theorem admitLoop_of_admitOne {prepare : LangRequest → LangRequest} {P : LangScheduler → Prop}
    (hone : ∀ (s : LangScheduler) (r : LangRequest) (rest : List LangRequest),
      s.requestQueue = r :: rest → r.requestTime ≤ s.cycleCount → P s →
        P (s.admitOne prepare r rest))
    {s : LangScheduler} (h : P s) : P (s.admitLoop prepare s.requestQueue) := by
  have hloop : ∀ (queue : List LangRequest) (s : LangScheduler), s.requestQueue = queue → P s →
      P (s.admitLoop prepare queue) := by
    intro queue
    induction queue with
    | nil => exact fun _ _ h => h
    | cons r rest ih =>
        intro s hq h
        unfold admitLoop
        dsimp only
        split
        · next ht =>
            have hadmitted := hone s r rest hq ht h
            split
            · exact hadmitted
            · exact ih _ rfl hadmitted
        · exact h
  exact hloop _ s rfl h

/-- The fields the admission loop leaves alone. -/
theorem admitLoop_frame (prepare : LangRequest → LangRequest) (s : LangScheduler) :
    (s.admitLoop prepare s.requestQueue).cycleCount = s.cycleCount ∧
      (s.admitLoop prepare s.requestQueue).maxBatchSize = s.maxBatchSize ∧
      (s.admitLoop prepare s.requestQueue).modelQueue = s.modelQueue ∧
      (s.admitLoop prepare s.requestQueue).requestsInModel = s.requestsInModel :=
  admitLoop_of_admitOne (P := fun t => t.cycleCount = s.cycleCount ∧
    t.maxBatchSize = s.maxBatchSize ∧ t.modelQueue = s.modelQueue ∧
    t.requestsInModel = s.requestsInModel) (fun _ _ _ _ _ h => h) ⟨rfl, rfl, rfl, rfl⟩

/-! ## 5. Batches of the single model -/

/-- The input `init_inputs_and_model` makes of a request. -/
def inputOf (id : Nat) (r : LangRequest) : LangInput where
  requestId := id
  seqLength := if r.genPhase then 1 else r.promptLength
  contextLength := r.currentLength
  keyCache := r.keyCache
  valueCache := r.valueCache

/-- The collecting loop of `init_inputs_and_model`. -/
def collectInputs (maxBatchSize : Nat) : List (Nat × LangRequest) → List LangInput → List LangInput
  | [], inputs => inputs
  | (id, r) :: rest, inputs =>
      let inputs := if r.running then inputs else inputs ++ [inputOf id r]
      if maxBatchSize > 0 ∧ inputs.length ≥ maxBatchSize then inputs
      else collectInputs maxBatchSize rest inputs

/-- Marks the requests of a batch as running. -/
def markRunning (active : TreeMap Nat LangRequest) (inputs : List LangInput) :
    TreeMap Nat LangRequest :=
  inputs.foldl (fun m i => m.modify i.requestId fun r => { r with running := true }) active

/-- The memory check: the usage in GB is above the size of the DRAM. -/
def exceedsMemory (s : LangScheduler) (numTokens : Nat) : Bool :=
  let gb : ℚ := 1024 * 1024 * 1024
  let totMem := (s.languageModel.wgtSize : ℚ) / gb + (s.getKvMemorySize : ℚ) / gb +
    (s.languageModel.actSize : ℚ) / gb * numTokens
  decide ((s.config.dramSize : ℚ) < totMem) && decide (s.config.dramSize > 0)

/-- `init_inputs_and_model`. The failed memory check ends the process when it is enabled. -/
def initInputsAndModel (s : LangScheduler) : Option LangScheduler :=
  let inputs := collectInputs s.maxBatchSize s.activeRequests.toList []
  if inputs.isEmpty then some s
  else
    match s.languageModel.generateModel inputs s.globals with
    | none => none
    | some (model, g) =>
        let s := { s with
          activeRequests := markRunning s.activeRequests inputs
          requestsInModel := s.requestsInModel.insert model.id
            ((s.requestsInModel[model.id]?).getD [] ++ inputs.map LangInput.requestId)
          modelQueue := s.modelQueue ++ [model]
          globals := g }
        if s.exceedsMemory (inputs.map LangInput.seqLength).sum && s.checkMemSize then none
        else some s

/-- `LangScheduler::cycle`. -/
def cycle (s : LangScheduler) : Option LangScheduler :=
  let s := { s with cycleCount := s.cycleCount + 1 }
  let s := if s.activeRequests.isEmpty then s.admitLoop id s.requestQueue else s
  if s.modelQueue.isEmpty && s.requestsInModel.isEmpty then s.initInputsAndModel else some s

/-- One request of a finished batch: it grows by its prompt and a token, or by a token. -/
def finishRequest (s : LangScheduler) (id : Nat) (r : LangRequest) : LangScheduler :=
  let newLength :=
    if !r.genPhase then r.currentLength + (r.promptLength + 1) else r.currentLength + 1
  let event : LangStepEvent :=
    { requestId := id
      promptLength := r.promptLength
      previousLength := r.currentLength
      currentLength := newLength
      targetLength := r.targetLength
      generatedTokens := 1
      wasGenerationPhase := r.genPhase }
  let r := { r with genPhase := true, currentLength := newLength, running := false }
  let r := r.resizeCache [newLength, s.cacheDim]
  { s with
    lastFinishedEvents := s.lastFinishedEvents ++ [event]
    activeRequests :=
      if newLength ≥ r.targetLength then s.activeRequests.erase id
      else s.activeRequests.insert id r }

/-- The request loop of `LangScheduler::finish_model`. -/
def finishRequests : List Nat → LangScheduler → Option LangScheduler
  | [], s => some s
  | id :: ids, s =>
      match s.activeRequests[id]? with
      | none => none
      | some r => finishRequests ids (s.finishRequest id r)

/-- What the end of one request keeps, the loop keeps. -/
theorem finishRequests_of_finishRequest {P : LangScheduler → Prop}
    (hone : ∀ (s : LangScheduler) (id : Nat) (r : LangRequest), s.activeRequests[id]? = some r →
      P s → P (s.finishRequest id r))
    {ids : List Nat} {s s' : LangScheduler} (h : finishRequests ids s = some s') (hs : P s) :
    P s' := by
  induction ids generalizing s with
  | nil =>
      cases h
      exact hs
  | cons id ids ih =>
      unfold finishRequests at h
      cases hr : s.activeRequests[id]? with
      | none => simp only [hr] at h; cases h
      | some r =>
          simp only [hr] at h
          exact ih h (hone s id r hr hs)

/-- `LangScheduler::finish_model`. -/
def finishModel (s : LangScheduler) (modelId : Nat) : Option LangScheduler :=
  match finishRequests ((s.requestsInModel[modelId]?).getD []) { s with lastFinishedEvents := [] } with
  | none => none
  | some s => some { s with requestsInModel := s.requestsInModel.erase modelId }

end LangScheduler

end Ahasd
