/-
  File:      Ahasd/KVCacheConcat.lean
  Subject:   THE TILES OF THE CACHE OPERATION (operations/KVCacheConcat.cc): at which addresses the
             new keys and values of a batch are written.

  * `tokenStep`, `tokenLoop`: what a tile does for a token, and its loop, which runs to the last
    token of the batch; `initializeInstructions`, `initializeTiles`: its instructions, and the
    tiles;
  * `initializeTiles_isSome`: the loop never leaves the batch;
  * `same_addresses`: every tile stores the values where it stores the keys;
  * `WritesOwnRows`, `OwnTensors`: the new rows of each request's own two tensors, and no others;
    **`writes_own_rows_iff`**: only an operation with nothing to write does this.
-/
import Std.Data.TreeSet.Lemmas
import Ahasd.KVWrites

namespace Ahasd

open Std

/-! ## 1. The operation -/

/-- One request of the batch, with its cache tensors of the layer. -/
structure KVCacheConcat.Entry where
  input : LangInput
  keyCache : Tensor
  valueCache : Tensor

/-- `KVCacheConcat`, for a batch: the configuration it reads, its first input (the QKV projection,
    with a row for each token of the batch) and its first output (a query). -/
structure KVCacheConcat where
  precision : Nat
  dramReqSize : Nat
  spadSize : Nat
  ssrcEnable : Bool := false
  layerId : Nat := 0
  hiddenSize : Nat
  numAttentionHeads : Nat
  numKvHeads : Nat
  qkvOutDim : Nat
  qkvAddress : Nat
  queryAddress : Nat
  entries : List KVCacheConcat.Entry
  /-- A row of the projection has bytes. -/
  filled : 0 < qkvOutDim * precision

/-- `Tile`, the fields the operation sets. -/
structure Tile where
  optype : String
  layerId : Nat
  skip : Bool
  instructions : List Instruction

/-- `ceil_div`. -/
def ceilDiv (src div : Nat) : Nat := (src + div - 1) / div

namespace KVCacheConcat

/-- The key output of a request, as `define_tensor` leaves it: at the address of the cache, with the
    tokens of the step added to its rows. -/
def Entry.keyOutput (e : Entry) : Tensor :=
  e.keyCache.resizeTensor (outputDims e.keyCache.dims e.input.seqLength)

section Operation

variable (op : KVCacheConcat)

/-- `_cache_dim`. -/
def cacheDim : Nat := op.hiddenSize / op.numAttentionHeads * op.numKvHeads

/-- The rows of the first input: the tokens of the batch. -/
def numTokens : Nat := (op.entries.map (·.input.seqLength)).sum

/-- `per_token_size`. -/
def perTokenSize : Nat := op.precision * (op.cacheDim * 2 + op.hiddenSize)

/-- The bytes a token adds to a cache. -/
def rowBytes : Nat := op.cacheDim * op.precision

/-- Half of the scratchpad, in bytes. -/
def halfSpad : Nat := op.spadSize * 1024 / 2

/-- `_outter_loops`. -/
def outterLoops : Nat := ceilDiv (op.numTokens * op.qkvOutDim * op.precision) op.halfSpad

/-- `_inner_loops`. -/
def innerLoops : Nat := ceilDiv op.halfSpad op.perTokenSize

/-- `align_address`. -/
def alignAddress (addr : Nat) : Nat := addr - addr % op.dramReqSize

/-- The aligned addresses of a loop `for (offset = 0; offset < bytes; offset += dram_req_size)`. -/
def requests (addr bytes : Nat) : List Nat :=
  (List.range (ceilDiv bytes op.dramReqSize)).map fun i =>
    op.alignAddress (addr + i * op.dramReqSize)

/-- What a tile has collected, and where it is in the batch. -/
structure LoopState where
  currentBatch : Nat := 0
  currentIndex : Nat := 0
  movin : TreeSet Nat := ∅
  query : TreeSet Nat := ∅
  keys : List (TreeSet Nat)
  values : List (TreeSet Nat)

/-- The body of the inner loop of `initialize_instructions`, for one token. -/
def tokenStep (tokenId : Nat) (st : LoopState) : Option LoopState :=
  (op.entries[st.currentBatch]?).map fun e =>
    let keyCacheTensor := e.keyOutput
    -- the size of the output already has the new rows
    let keyOutAddress :=
      keyCacheTensor.address + keyCacheTensor.size + st.currentIndex * op.cacheDim * op.precision
    -- formed from the key tensor as well
    let valueOutAddress :=
      keyCacheTensor.address + keyCacheTensor.size + st.currentIndex * op.cacheDim * op.precision
    -- the next request comes after the index has been used up to its length
    let next := decide (e.input.seqLength ≤ st.currentIndex)
    { currentBatch := if next then st.currentBatch + 1 else st.currentBatch
      currentIndex := (if next then 0 else st.currentIndex) + 1
      movin := st.movin.insertMany
        (op.requests (op.qkvAddress + tokenId * op.perTokenSize) op.perTokenSize)
      query := st.query.insertMany
        (op.requests (op.queryAddress + tokenId * op.hiddenSize * op.precision)
          (op.hiddenSize * op.precision))
      keys := st.keys.modify st.currentBatch fun s =>
        s.insertMany (op.requests keyOutAddress op.rowBytes)
      values := st.values.modify st.currentBatch fun s =>
        s.insertMany (op.requests valueOutAddress op.rowBytes) }

/-- The inner loop from a token on. -/
def tokenLoop : Nat → Nat → LoopState → Option LoopState
  | 0, _, st => some st
  | n + 1, tokenId, st => (op.tokenStep tokenId st).bind (tokenLoop n (tokenId + 1))

/-- The state in front of the inner loop. -/
def LoopState.start (batches : Nat) : LoopState where
  keys := List.replicate batches ∅
  values := List.replicate batches ∅

/-- `initialize_instructions`. The condition of the inner loop is `_inner_loops` itself: the loop
    ends with the tokens of the batch, in every tile. -/
def initializeInstructions (idx : Nat) : Option (List Instruction) :=
  let first := idx * op.innerLoops
  (op.tokenLoop (op.numTokens - first) first (.start op.entries.length)).map fun st =>
    { opcode := .movin, srcAddrs := st.movin.toList, baseAddr := 0 } ::
    { opcode := .movout, srcAddrs := st.query.toList, baseAddr := 0 } ::
    kvStores (op.entries.map (·.input)) (st.keys.map TreeSet.toList)
      (st.values.map TreeSet.toList) 0

/-- The tiles from an index on. -/
def tilesFrom : Nat → Nat → Option (List Tile)
  | 0, _ => some []
  | n + 1, idx =>
      (op.initializeInstructions idx).bind fun instructions =>
        (tilesFrom n (idx + 1)).map fun tiles =>
          { optype := "KVCacheConcat"
            layerId := op.layerId
            skip := !op.ssrcEnable
            instructions := instructions } :: tiles

/-- `initialize_tiles`: a division by zero, or a loop that does not advance, makes no tiles. -/
def initializeTiles : Option (List Tile) :=
  if op.dramReqSize = 0 ∨ op.halfSpad = 0 ∨ op.perTokenSize = 0 then none
  else op.tilesFrom op.outterLoops 0

end Operation

/-! ## 2. The walk through the batch -/

section Walk

variable (op : KVCacheConcat)

/-- The tokens of the requests in front. -/
def tokensBefore (batch : Nat) : Nat := ((op.entries.take batch).map (·.input.seqLength)).sum

theorem tokensBefore_succ {batch : Nat} {e : Entry} (h : op.entries[batch]? = some e) :
    op.tokensBefore (batch + 1) = op.tokensBefore batch + e.input.seqLength := by
  unfold tokensBefore
  rw [List.take_add_one, h, List.map_append, List.sum_append]
  rfl

/-- Short of the tokens of the batch, there is a request left. -/
theorem exists_entry (batch : Nat) (h : op.tokensBefore batch < op.numTokens) :
    ∃ e, op.entries[batch]? = some e := by
  cases he : op.entries[batch]? with
  | some e => exact ⟨e, rfl⟩
  | none =>
      unfold tokensBefore numTokens at h
      rw [List.take_of_length_le (List.getElem?_eq_none_iff.mp he)] at h
      exact absurd h (Nat.lt_irrefl _)

/-- **The loop never leaves the batch**: the requests in front and the current index are no more
    tokens than have been processed. -/
theorem tokenLoop_isSome (n tokenId : Nat) (st : LoopState)
    (h : op.tokensBefore st.currentBatch + st.currentIndex + n ≤ op.numTokens) :
    (op.tokenLoop n tokenId st).isSome = true := by
  induction n generalizing tokenId st with
  | zero => rfl
  | succ n ih =>
      obtain ⟨e, he⟩ := op.exists_entry st.currentBatch (by omega)
      unfold tokenLoop tokenStep
      rw [he, Option.map_some, Option.bind_some]
      refine ih (tokenId + 1) _ ?_
      by_cases hnext : e.input.seqLength ≤ st.currentIndex
      · have hsucc := op.tokensBefore_succ he
        simp only [hnext, decide_true, if_true]
        omega
      · simp only [hnext, decide_false, Bool.false_eq_true, if_false]
        omega

theorem initializeInstructions_isSome (idx : Nat) :
    (op.initializeInstructions idx).isSome = true := by
  unfold initializeInstructions
  rw [Option.isSome_map]
  refine op.tokenLoop_isSome _ _ _ ?_
  show op.tokensBefore 0 + 0 + _ ≤ _
  have hzero : op.tokensBefore 0 = 0 := rfl
  omega

theorem tilesFrom_isSome (n idx : Nat) : (op.tilesFrom n idx).isSome = true := by
  induction n generalizing idx with
  | zero => rfl
  | succ n ih =>
      obtain ⟨insts, hinsts⟩ := Option.isSome_iff_exists.mp (op.initializeInstructions_isSome idx)
      unfold tilesFrom
      rw [hinsts, Option.bind_some, Option.isSome_map]
      exact ih (idx + 1)

/-- **The tiles are made** unless the configuration divides by zero. -/
theorem initializeTiles_isSome (hreq : 0 < op.dramReqSize) (hspad : 0 < op.halfSpad)
    (htoken : 0 < op.perTokenSize) : op.initializeTiles.isSome = true := by
  unfold initializeTiles
  rw [if_neg (by omega)]
  exact op.tilesFrom_isSome _ _

/-- Each tile has the instructions of an index. -/
theorem instructions_of_mem {n idx : Nat} {tiles : List Tile}
    (h : op.tilesFrom n idx = some tiles) {tile : Tile} (hmem : tile ∈ tiles) :
    ∃ idx', op.initializeInstructions idx' = some tile.instructions := by
  induction n generalizing idx tiles with
  | zero =>
      cases h
      cases hmem
  | succ n ih =>
      obtain ⟨insts, hinsts, hcons⟩ := Option.bind_eq_some_iff.mp h
      obtain ⟨rest, hrest, rfl⟩ := Option.map_eq_some_iff.mp hcons
      rcases List.mem_cons.mp hmem with rfl | hmem
      · exact ⟨idx, hinsts⟩
      · exact ih hrest hmem

/-- Where there is a tile at all, the first index has one. -/
theorem exists_first_tile {n : Nat} {tiles : List Tile} (h : op.tilesFrom n 0 = some tiles)
    (hn : 0 < n) : ∃ tile ∈ tiles, op.initializeInstructions 0 = some tile.instructions := by
  cases n with
  | zero => omega
  | succ n =>
      obtain ⟨insts, hinsts, hrest⟩ := Option.bind_eq_some_iff.mp h
      obtain ⟨rest, hrest, rfl⟩ := Option.map_eq_some_iff.mp hrest
      exact ⟨_, List.mem_cons_self, hinsts⟩

end Walk

/-! ## 3. What a tile stores -/

section Stores

variable (op : KVCacheConcat)

/-- The address is in the set of the request. -/
def Collected (sets : List (TreeSet Nat)) (batch addr : Nat) : Prop :=
  ∃ s, sets[batch]? = some s ∧ addr ∈ s

/-- A token adds its row to the set of its request. -/
theorem collected_modify {sets : List (TreeSet Nat)} {current : Nat} {row : List Nat}
    (batch addr : Nat) :
    Collected (sets.modify current fun s => s.insertMany row) batch addr ↔
      Collected sets batch addr ∨ batch = current ∧ batch < sets.length ∧ addr ∈ row := by
  unfold Collected
  rw [List.getElem?_modify]
  cases hset : sets[batch]? with
  | none =>
      have hlen := List.getElem?_eq_none_iff.mp hset
      simp
      omega
  | some s =>
      have hlen : batch < sets.length := (List.getElem?_eq_some_iff.mp hset).1
      by_cases hcurrent : current = batch
      · subst hcurrent
        simp [TreeSet.mem_insertMany_list, hlen]
      · simp [hcurrent, Ne.symm hcurrent]

/-- The row a token adds at an index of a request. -/
def storedRow (e : Entry) (index : Nat) : List Nat :=
  op.requests (e.keyOutput.address + e.keyOutput.size + index * op.cacheDim * op.precision)
    op.rowBytes

/-- **A tile collects the same addresses for the values as for the keys.** -/
theorem tokenLoop_same {n tokenId : Nat} {st st' : LoopState}
    (h : op.tokenLoop n tokenId st = some st') (hsame : st.values = st.keys) :
    st'.values = st'.keys ∧ st'.keys.length = st.keys.length := by
  induction n generalizing tokenId st with
  | zero =>
      cases h
      exact ⟨hsame, rfl⟩
  | succ n ih =>
      obtain ⟨st₁, hstep, hrest⟩ := Option.bind_eq_some_iff.mp h
      obtain ⟨e, he, rfl⟩ := Option.map_eq_some_iff.mp hstep
      obtain ⟨hvalues, hlength⟩ := ih hrest (by rw [hsame])
      exact ⟨hvalues, hlength.trans (List.length_modify ..)⟩

/-- What is collected stays, and what is added is a row of some request. -/
theorem tokenLoop_collected {n tokenId : Nat} {st st' : LoopState}
    (h : op.tokenLoop n tokenId st = some st') {batch addr : Nat} :
    (Collected st.keys batch addr → Collected st'.keys batch addr) ∧
      (Collected st'.keys batch addr → Collected st.keys batch addr ∨
        ∃ e ∈ op.entries, ∃ index, addr ∈ op.storedRow e index) := by
  induction n generalizing tokenId st with
  | zero =>
      cases h
      exact ⟨id, Or.inl⟩
  | succ n ih =>
      obtain ⟨st₁, hstep, hrest⟩ := Option.bind_eq_some_iff.mp h
      obtain ⟨e, he, rfl⟩ := Option.map_eq_some_iff.mp hstep
      obtain ⟨hstays, hfrom⟩ := ih hrest
      refine ⟨fun hold => hstays ((collected_modify _ _).mpr (.inl hold)), fun hnew => ?_⟩
      rcases hfrom hnew with hnew | hrow
      · rcases (collected_modify _ _).mp hnew with hold | ⟨_, _, hrow⟩
        · exact .inl hold
        · exact .inr ⟨e, List.mem_of_getElem? he, st.currentIndex, hrow⟩
      · exact .inr hrow

end Stores

/-! ## 4. The stores of a batch entry -/

section Movouts

variable (op : KVCacheConcat)

/-- The key store of a batch entry in a tile: the loads and the query store come first. -/
def keyMovout (batch : Nat) (tile : Tile) : Option Instruction := tile.instructions[2 + batch]?

/-- Its value store. -/
def valueMovout (batch : Nat) (tile : Tile) : Option Instruction :=
  tile.instructions[2 + op.entries.length + batch]?

/-- The addresses the tiles store to. -/
def movoutAddresses (tiles : List Tile) (movout : Tile → Option Instruction) : Set Nat :=
  { a | ∃ tile ∈ tiles, ∃ inst, movout tile = some inst ∧ a ∈ inst.srcAddrs }

/-- The key addresses of a batch entry over all tiles. -/
def keyAddresses (tiles : List Tile) (batch : Nat) : Set Nat :=
  movoutAddresses tiles (keyMovout batch)

/-- Its value addresses. -/
def valueAddresses (tiles : List Tile) (batch : Nat) : Set Nat :=
  movoutAddresses tiles (op.valueMovout batch)

/-- A store of `kvStores`. -/
def storeOf (r : LangInput) (addrs : List Nat) : Instruction where
  opcode := .movout
  srcAddrs := addrs
  baseAddr := 0
  requestId := r.requestId
  requestIdentityTagged := true

/-- The keys of the requests come first, then the values. -/
theorem kvStores_getElem? {reqs : List LangInput} {keyAddrs valueAddrs : List (List Nat)}
    {batch : Nat} {r : LangInput} {keys values : List Nat} (hr : reqs[batch]? = some r)
    (hk : keyAddrs[batch]? = some keys) (hv : valueAddrs[batch]? = some values)
    (hlength : keyAddrs.length = reqs.length) :
    (kvStores reqs keyAddrs valueAddrs 0)[batch]? = some (storeOf r keys) ∧
      (kvStores reqs keyAddrs valueAddrs 0)[reqs.length + batch]? = some (storeOf r values) := by
  have hbatch : batch < reqs.length := (List.getElem?_eq_some_iff.mp hr).1
  have hzip : (List.zipWith storeOf reqs keyAddrs).length = reqs.length := by
    rw [List.length_zipWith, hlength, Nat.min_self]
  have heq : kvStores reqs keyAddrs valueAddrs 0 =
      List.zipWith storeOf reqs keyAddrs ++ List.zipWith storeOf reqs valueAddrs := rfl
  rw [heq]
  constructor
  · rw [List.getElem?_append_left (by omega), List.getElem?_zipWith, hr, hk]
  · rw [List.getElem?_append_right (by omega), hzip, Nat.add_sub_cancel_left,
      List.getElem?_zipWith, hr, hv]

/-- **The stores of a tile**: for each request what the loop collected, under the id of the request,
    once for the keys and once for the values. -/
theorem initializeInstructions_stores {idx : Nat} {insts : List Instruction}
    (h : op.initializeInstructions idx = some insts) :
    ∃ st, op.tokenLoop (op.numTokens - idx * op.innerLoops) (idx * op.innerLoops)
        (.start op.entries.length) = some st ∧
      ∀ (batch : Nat) (e : Entry), op.entries[batch]? = some e →
        ∃ s, st.keys[batch]? = some s ∧ insts[2 + batch]? = some (storeOf e.input s.toList) ∧
          insts[2 + op.entries.length + batch]? = some (storeOf e.input s.toList) := by
  obtain ⟨st, hst, rfl⟩ := Option.map_eq_some_iff.mp h
  obtain ⟨hvalues, hlength⟩ := op.tokenLoop_same hst rfl
  refine ⟨st, hst, fun batch e he => ?_⟩
  have hkeys : st.keys.length = op.entries.length := hlength.trans List.length_replicate
  have hbatch : batch < st.keys.length := hkeys ▸ (List.getElem?_eq_some_iff.mp he).1
  obtain ⟨s, hs⟩ : ∃ s, st.keys[batch]? = some s := ⟨_, List.getElem?_eq_getElem hbatch⟩
  have hmap : (st.keys.map TreeSet.toList)[batch]? = some s.toList := by
    rw [List.getElem?_map, hs]
    rfl
  have hinput : (op.entries.map (·.input))[batch]? = some e.input := by
    rw [List.getElem?_map, he]
    rfl
  obtain ⟨hkey, hvalue⟩ := kvStores_getElem? hinput hmap hmap (by simp [hkeys])
  rw [List.length_map] at hvalue
  refine ⟨s, hs, ?_, ?_⟩
  · rw [Nat.add_comm 2 batch]
    exact hvalues ▸ hkey
  · rw [Nat.add_assoc, Nat.add_comm 2]
    exact hvalues ▸ hvalue

/-- What a tile has collected for a batch entry. -/
def TileCollects (tile : Tile) (batch addr : Nat) : Prop :=
  ∃ idx st, op.initializeInstructions idx = some tile.instructions ∧
    op.tokenLoop (op.numTokens - idx * op.innerLoops) (idx * op.innerLoops)
      (.start op.entries.length) = some st ∧ Collected st.keys batch addr

/-- **The key and the value addresses of a batch entry are both what its tiles collect.** -/
theorem mem_addresses {tiles : List Tile} (h : op.initializeTiles = some tiles)
    {batch : Nat} {e : Entry} (he : op.entries[batch]? = some e) (addr : Nat) :
    (addr ∈ keyAddresses tiles batch ↔ ∃ tile ∈ tiles, op.TileCollects tile batch addr) ∧
      (addr ∈ op.valueAddresses tiles batch ↔ ∃ tile ∈ tiles, op.TileCollects tile batch addr) := by
  have htiles : op.tilesFrom op.outterLoops 0 = some tiles := by
    unfold initializeTiles at h
    split at h
    · cases h
    · exact h
  have htile : ∀ tile ∈ tiles,
      ((∃ inst, keyMovout batch tile = some inst ∧ addr ∈ inst.srcAddrs) ↔
        op.TileCollects tile batch addr) ∧
      ((∃ inst, op.valueMovout batch tile = some inst ∧ addr ∈ inst.srcAddrs) ↔
        op.TileCollects tile batch addr) := by
    intro tile hmem
    obtain ⟨idx, hinsts⟩ := op.instructions_of_mem htiles hmem
    obtain ⟨st, hst, hstores⟩ := op.initializeInstructions_stores hinsts
    obtain ⟨s, hs, hkey, hvalue⟩ := hstores batch e he
    have hcollects : addr ∈ s.toList ↔ op.TileCollects tile batch addr := by
      rw [TreeSet.mem_toList]
      constructor
      · exact fun hin => ⟨idx, st, hinsts, hst, s, hs, hin⟩
      · rintro ⟨idx', st', hinsts', hst', s', hs', hin⟩
        obtain ⟨st₂, hst₂, hstores'⟩ := op.initializeInstructions_stores hinsts'
        obtain ⟨s₂, hs₂, hkey', _⟩ := hstores' batch e he
        rw [hst', Option.some.injEq] at hst₂
        subst hst₂
        rw [hs', Option.some.injEq] at hs₂
        subst hs₂
        rw [hkey, Option.some.injEq] at hkey'
        have hlist : s.toList = s'.toList := congrArg Instruction.srcAddrs hkey'
        rw [← TreeSet.mem_toList, hlist, TreeSet.mem_toList]
        exact hin
    unfold keyMovout valueMovout
    rw [hkey, hvalue]
    refine ⟨Iff.trans ?_ hcollects, Iff.trans ?_ hcollects⟩
    · exact ⟨fun ⟨inst, hinst, hin⟩ => by cases hinst; exact hin, fun hin => ⟨_, rfl, hin⟩⟩
    · exact ⟨fun ⟨inst, hinst, hin⟩ => by cases hinst; exact hin, fun hin => ⟨_, rfl, hin⟩⟩
  exact ⟨exists_congr fun tile => and_congr_right fun hmem => (htile tile hmem).1,
    exists_congr fun tile => and_congr_right fun hmem => (htile tile hmem).2⟩

end Movouts

/-! ## 5. Which addresses there are -/

theorem ceilDiv_pos {a d : Nat} (ha : 0 < a) (hd : 0 < d) : 0 < ceilDiv a d :=
  Nat.div_pos (by omega) hd

section Addresses

variable (op : KVCacheConcat)

/-- The first of the aligned addresses, if there are bytes at all. -/
theorem alignAddress_mem {addr bytes : Nat} (hreq : 0 < op.dramReqSize) (hbytes : 0 < bytes) :
    op.alignAddress addr ∈ op.requests addr bytes := by
  refine List.mem_map.mpr ⟨0, List.mem_range.mpr (ceilDiv_pos hbytes hreq), ?_⟩
  rw [Nat.zero_mul, Nat.add_zero]

theorem requests_nil {addr bytes : Nat} (hreq : 0 < op.dramReqSize) (hbytes : bytes = 0) :
    op.requests addr bytes = [] := by
  have hzero : ceilDiv bytes op.dramReqSize = 0 := Nat.div_eq_of_lt (by omega)
  unfold requests
  rw [hzero]
  rfl

theorem alignAddress_mono {a b : Nat} (h : a ≤ b) : op.alignAddress a ≤ op.alignAddress b := by
  have hdiv := Nat.div_le_div_right (c := op.dramReqSize) h
  have ha := Nat.div_add_mod a op.dramReqSize
  have hb := Nat.div_add_mod b op.dramReqSize
  have hmul := Nat.mul_le_mul_left op.dramReqSize hdiv
  unfold alignAddress
  omega

/-- Every aligned address is at or after the first. -/
theorem alignAddress_le {addr bytes a : Nat} (h : a ∈ op.requests addr bytes) :
    op.alignAddress addr ≤ a := by
  obtain ⟨i, _, rfl⟩ := List.mem_map.mp h
  exact op.alignAddress_mono (Nat.le_add_right ..)

/-- What the tiles divide by is not zero. -/
theorem initializeTiles_pos {tiles : List Tile} (h : op.initializeTiles = some tiles) :
    (0 < op.dramReqSize ∧ 0 < op.halfSpad) ∧ op.tilesFrom op.outterLoops 0 = some tiles := by
  unfold initializeTiles at h
  split at h
  · cases h
  · exact ⟨by omega, h⟩

/-- **With a token and bytes to write, the first tile stores for the first request.** -/
theorem first_keyAddress {tiles : List Tile} (h : op.initializeTiles = some tiles)
    (htokens : 0 < op.numTokens) (hbytes : 0 < op.rowBytes) :
    ∃ e addr, op.entries[0]? = some e ∧ addr ∈ keyAddresses tiles 0 := by
  obtain ⟨⟨hreq, hspad⟩, htiles⟩ := op.initializeTiles_pos h
  obtain ⟨e, he⟩ := op.exists_entry 0 htokens
  have houtter : 0 < op.outterLoops :=
    ceilDiv_pos (Nat.mul_assoc .. ▸ Nat.mul_pos htokens op.filled) hspad
  obtain ⟨tile, hmem, hinsts⟩ := op.exists_first_tile htiles houtter
  obtain ⟨st, hst, _⟩ := op.initializeInstructions_stores hinsts
  have hcollected : Collected st.keys 0 (op.alignAddress
      (e.keyOutput.address + e.keyOutput.size + 0 * op.cacheDim * op.precision)) := by
    -- the first token adds its row, and the rest of the loop keeps it
    obtain ⟨n, hn⟩ : ∃ n, op.numTokens - 0 * op.innerLoops = n + 1 :=
      ⟨op.numTokens - 1, by rw [Nat.zero_mul]; omega⟩
    rw [hn] at hst
    obtain ⟨st₁, hstep, hrest⟩ := Option.bind_eq_some_iff.mp hst
    obtain ⟨e', he', rfl⟩ := Option.map_eq_some_iff.mp hstep
    rw [show (LoopState.start op.entries.length).currentBatch = 0 from rfl, he,
      Option.some.injEq] at he'
    subst he'
    refine (op.tokenLoop_collected hrest).1 ((collected_modify _ _).mpr (.inr ⟨rfl, ?_, ?_⟩))
    · show 0 < (List.replicate op.entries.length (∅ : TreeSet Nat)).length
      rw [List.length_replicate]
      exact (List.getElem?_eq_some_iff.mp he).1
    · exact op.alignAddress_mem hreq hbytes
  exact ⟨e, _, he, ((op.mem_addresses h he _).1).mpr ⟨tile, hmem, 0, st, hinsts, hst, hcollected⟩⟩

/-- **Without, no tile stores anything.** -/
theorem keyAddresses_empty {tiles : List Tile} (h : op.initializeTiles = some tiles)
    (hnothing : op.numTokens = 0 ∨ op.rowBytes = 0) {batch : Nat} {e : Entry}
    (he : op.entries[batch]? = some e) (addr : Nat) : addr ∉ keyAddresses tiles batch := by
  obtain ⟨⟨hreq, _⟩, _⟩ := op.initializeTiles_pos h
  have hstart : ¬ Collected (LoopState.start op.entries.length).keys batch addr := by
    rintro ⟨s, hs, hin⟩
    have hempty : s = ∅ :=
      List.eq_of_mem_replicate (List.mem_of_getElem? (l := List.replicate op.entries.length ∅) hs)
    rw [hempty] at hin
    exact TreeSet.not_mem_emptyc hin
  intro hin
  obtain ⟨tile, _, idx, st, _, hst, hcollected⟩ := ((op.mem_addresses h he addr).1).mp hin
  rcases hnothing with hzero | hzero
  · rw [hzero, Nat.zero_sub] at hst
    cases hst
    exact hstart hcollected
  · rcases (op.tokenLoop_collected hst).2 hcollected with hold | ⟨e', _, index, hrow⟩
    · exact hstart hold
    · unfold storedRow at hrow
      rw [op.requests_nil hreq hzero] at hrow
      cases hrow

end Addresses

end KVCacheConcat

/-! ## 6. The rows of the requests -/

/-- The rows of a cache tensor. -/
def Tensor.rows (t : Tensor) : Nat := t.dims.headD 0

/-- The bytes of a row. -/
def Tensor.rowBytes (t : Tensor) : Nat := t.dims.tail.foldl (· * ·) t.precision

namespace KVCacheConcat

section Rows

variable (op : KVCacheConcat)

/-- The aligned addresses of the rows a step of `length` tokens adds to a cache tensor. -/
def rowAddresses (t : Tensor) (length : Nat) : Set Nat :=
  { a | ∃ j, j < length ∧ a ∈ op.requests (t.address + (t.rows + j) * t.rowBytes) t.rowBytes }

/-- **Each request's stores are the new rows of its key and of its value tensor, under its id.** -/
structure WritesOwnRows (tiles : List Tile) : Prop where
  keys : ∀ (batch : Nat) (e : Entry), op.entries[batch]? = some e →
    keyAddresses tiles batch = op.rowAddresses e.keyCache e.input.seqLength
  values : ∀ (batch : Nat) (e : Entry), op.entries[batch]? = some e →
    op.valueAddresses tiles batch = op.rowAddresses e.valueCache e.input.seqLength
  requests : ∀ (batch : Nat) (e : Entry), op.entries[batch]? = some e → ∀ tile ∈ tiles,
    ∀ inst, keyMovout batch tile = some inst ∨ op.valueMovout batch tile = some inst →
      inst.requestId = e.input.requestId

/-- The key and the value addresses of a request come from different tensors: they share none. -/
def OwnTensors (tiles : List Tile) : Prop :=
  ∀ (batch : Nat) (e : Entry), op.entries[batch]? = some e →
    keyAddresses tiles batch ∩ op.valueAddresses tiles batch = ∅

/-- There is nothing to write: no token enters, or neither the operation nor a cache has bytes in a
    row. -/
def NothingToWrite : Prop :=
  op.numTokens = 0 ∨ op.rowBytes = 0 ∧
    ∀ e ∈ op.entries, e.input.seqLength = 0 ∨ e.keyCache.rowBytes = 0 ∧ e.valueCache.rowBytes = 0

/-- The new rows of the two tensors of a request begin in different DRAM requests. -/
def SeparateTensors : Prop :=
  ∀ e ∈ op.entries,
    op.alignAddress (e.keyCache.address + e.keyCache.rows * e.keyCache.rowBytes) ≠
      op.alignAddress (e.valueCache.address + e.valueCache.rows * e.valueCache.rowBytes)

theorem seqLength_zero (h : op.numTokens = 0) {e : Entry} (he : e ∈ op.entries) :
    e.input.seqLength = 0 :=
  List.sum_eq_zero_iff_forall_eq_nat.mp h _ (List.mem_map_of_mem he)

theorem mem_rowAddresses_first (hreq : 0 < op.dramReqSize) (t : Tensor) {length : Nat}
    (hlength : 0 < length) (hbytes : 0 < t.rowBytes) :
    op.alignAddress (t.address + t.rows * t.rowBytes) ∈ op.rowAddresses t length :=
  ⟨0, hlength, op.alignAddress_mem hreq hbytes⟩

/-- Every address of the new rows is at or after the first, and the rows then have bytes. -/
theorem rowAddresses_le (hreq : 0 < op.dramReqSize) {t : Tensor} {length a : Nat}
    (h : a ∈ op.rowAddresses t length) : 0 < length ∧ 0 < t.rowBytes ∧
      op.alignAddress (t.address + t.rows * t.rowBytes) ≤ a := by
  obtain ⟨j, hj, ha⟩ := h
  refine ⟨by omega, Nat.pos_of_ne_zero fun hzero => ?_, ?_⟩
  · rw [op.requests_nil hreq hzero] at ha
    cases ha
  · refine (op.alignAddress_mono ?_).trans (op.alignAddress_le ha)
    rw [Nat.add_mul]
    omega

/-- No address is due exactly when no token enters or the rows have no bytes. -/
theorem rowAddresses_empty (hreq : 0 < op.dramReqSize) (t : Tensor) (length : Nat) :
    op.rowAddresses t length = ∅ ↔ length = 0 ∨ t.rowBytes = 0 := by
  constructor
  · intro hempty
    by_contra hsome
    have hlength : 0 < length := by omega
    have hmem := op.mem_rowAddresses_first hreq t hlength (by omega)
    rw [hempty] at hmem
    exact hmem
  · intro hnothing
    refine Set.eq_empty_of_forall_notMem fun a ha => ?_
    obtain ⟨hlength, hbytes, _⟩ := op.rowAddresses_le hreq ha
    omega

/-- **Two allocated tensors of one shape are separate** for DRAM requests up to the alignment of the
    allocator. -/
theorem separateTensors_of_allocated (hreq : 0 < op.dramReqSize) (hsize : op.dramReqSize ≤ 256)
    (hallocated : ∀ e ∈ op.entries, e.keyCache.address % 256 = 0 ∧
      e.valueCache.address % 256 = 0 ∧ e.keyCache.address ≠ e.valueCache.address ∧
      e.keyCache.rows * e.keyCache.rowBytes = e.valueCache.rows * e.valueCache.rowBytes) :
    op.SeparateTensors := by
  intro e he heq
  obtain ⟨hkey, hvalue, hne, hshape⟩ := hallocated e he
  rw [hshape] at heq
  generalize e.valueCache.rows * e.valueCache.rowBytes = offset at heq
  unfold alignAddress at heq
  have hmod := Nat.mod_lt (e.keyCache.address + offset) hreq
  have hmod' := Nat.mod_lt (e.valueCache.address + offset) hreq
  have hle := Nat.mod_le (e.keyCache.address + offset) op.dramReqSize
  have hle' := Nat.mod_le (e.valueCache.address + offset) op.dramReqSize
  omega

variable {op} {tiles : List Tile} (h : op.initializeTiles = some tiles)

include h

/-- The key and the value addresses of a request are the same. -/
theorem same_addresses {batch : Nat} {e : Entry} (he : op.entries[batch]? = some e) :
    op.valueAddresses tiles batch = keyAddresses tiles batch :=
  Set.ext fun addr => ((op.mem_addresses h he addr).2).trans ((op.mem_addresses h he addr).1).symm

/-- Without anything to write the operation does what it should. -/
theorem writesOwnRows_of_nothing (hnothing : op.NothingToWrite) :
    op.WritesOwnRows tiles ∧ op.OwnTensors tiles := by
  obtain ⟨⟨hreq, _⟩, htiles⟩ := op.initializeTiles_pos h
  have hbytes : op.numTokens = 0 ∨ op.rowBytes = 0 := hnothing.imp_right And.left
  have hkeys : ∀ (batch : Nat) (e : Entry), op.entries[batch]? = some e →
      keyAddresses tiles batch = ∅ := fun batch e he =>
    Set.eq_empty_of_forall_notMem (op.keyAddresses_empty h hbytes he)
  have hdue : ∀ e ∈ op.entries, op.rowAddresses e.keyCache e.input.seqLength = ∅ ∧
      op.rowAddresses e.valueCache e.input.seqLength = ∅ := by
    intro e he
    rw [op.rowAddresses_empty hreq, op.rowAddresses_empty hreq]
    rcases hnothing with hzero | ⟨_, hrows⟩
    · exact ⟨.inl (op.seqLength_zero hzero he), .inl (op.seqLength_zero hzero he)⟩
    · rcases hrows e he with hzero | ⟨hkey, hvalue⟩
      · exact ⟨.inl hzero, .inl hzero⟩
      · exact ⟨.inr hkey, .inr hvalue⟩
  refine ⟨⟨fun batch e he => ?_, fun batch e he => ?_, fun batch e he tile hmem inst hinst => ?_⟩,
    fun batch e he => ?_⟩
  · rw [hkeys batch e he, (hdue e (List.mem_of_getElem? he)).1]
  · rw [same_addresses h he, hkeys batch e he, (hdue e (List.mem_of_getElem? he)).2]
  · obtain ⟨idx, hinsts⟩ := op.instructions_of_mem htiles hmem
    obtain ⟨st, _, hstores⟩ := op.initializeInstructions_stores hinsts
    obtain ⟨s, _, hkey, hvalue⟩ := hstores batch e he
    unfold keyMovout valueMovout at hinst
    rw [hkey, hvalue, or_self, Option.some.injEq] at hinst
    rw [← hinst]
    rfl
  · rw [hkeys batch e he]
    exact Set.empty_inter _

/-- Where no address is due and none is written, there is nothing to write. -/
theorem nothing_of_empty (hempty : ∀ (batch : Nat) (e : Entry), op.entries[batch]? = some e →
    keyAddresses tiles batch = ∅ ∧ op.rowAddresses e.keyCache e.input.seqLength = ∅ ∧
      op.rowAddresses e.valueCache e.input.seqLength = ∅) : op.NothingToWrite := by
  obtain ⟨⟨hreq, _⟩, _⟩ := op.initializeTiles_pos h
  refine (Nat.eq_zero_or_pos op.numTokens).imp_right fun htokens => ⟨?_, fun e he => ?_⟩
  · by_contra hbytes
    obtain ⟨e, addr, he, hmem⟩ := op.first_keyAddress h htokens (Nat.pos_of_ne_zero hbytes)
    rw [(hempty 0 e he).1] at hmem
    exact hmem
  · obtain ⟨batch, hbatch⟩ := List.mem_iff_getElem?.mp he
    obtain ⟨_, hkeys, hvalues⟩ := hempty batch e hbatch
    rw [op.rowAddresses_empty hreq] at hkeys hvalues
    omega

/-- Two tensors that begin in different DRAM requests have different new rows, if any. -/
theorem rows_empty_of_eq (hseparate : op.SeparateTensors) {e : Entry} (he : e ∈ op.entries)
    (heq : op.rowAddresses e.keyCache e.input.seqLength =
      op.rowAddresses e.valueCache e.input.seqLength) :
    op.rowAddresses e.keyCache e.input.seqLength = ∅ := by
  obtain ⟨⟨hreq, _⟩, _⟩ := op.initializeTiles_pos h
  rw [op.rowAddresses_empty hreq]
  by_contra hsome
  have htokens : 0 < e.input.seqLength := by omega
  have hkey := op.mem_rowAddresses_first hreq e.keyCache htokens (by omega)
  have hkey' := hkey
  rw [heq] at hkey'
  obtain ⟨hlength, hbytes, hle⟩ := op.rowAddresses_le hreq hkey'
  have hvalue := op.mem_rowAddresses_first hreq e.valueCache hlength hbytes
  rw [← heq] at hvalue
  obtain ⟨_, _, hge⟩ := op.rowAddresses_le hreq hvalue
  exact hseparate e he (Nat.le_antisymm hge hle)

/-- **The stores are the new rows of each request's own tensors exactly when there is nothing to
    write**; and where the two tensors of a request do not share a DRAM request, they are the new
    rows at all only then. -/
theorem writes_own_rows_iff :
    (op.WritesOwnRows tiles ∧ op.OwnTensors tiles ↔ op.NothingToWrite) ∧
      (op.SeparateTensors → (op.WritesOwnRows tiles ↔ op.NothingToWrite)) := by
  refine ⟨⟨fun ⟨hrows, hown⟩ => nothing_of_empty h fun batch e he => ?_,
    writesOwnRows_of_nothing h⟩, fun hseparate => ⟨fun hrows => nothing_of_empty h fun batch e he => ?_,
    fun hnothing => (writesOwnRows_of_nothing h hnothing).1⟩⟩
  · have hempty : keyAddresses tiles batch = ∅ := by
      have hshared := hown batch e he
      rwa [same_addresses h he, Set.inter_self] at hshared
    refine ⟨hempty, ?_, ?_⟩
    · rw [← hrows.keys batch e he, hempty]
    · rw [← hrows.values batch e he, same_addresses h he, hempty]
  · have heq : op.rowAddresses e.keyCache e.input.seqLength =
        op.rowAddresses e.valueCache e.input.seqLength := by
      rw [← hrows.keys batch e he, ← hrows.values batch e he, same_addresses h he]
    have hempty := rows_empty_of_eq h hseparate (List.mem_of_getElem? he) heq
    exact ⟨(hrows.keys batch e he).trans hempty, hempty, heq ▸ hempty⟩

end Rows

/-- A batch of two requests of a token each, with four rows of 32 bytes in every cache. -/
def sampleBatch : KVCacheConcat where
  precision := 2
  dramReqSize := 32
  spadSize := 64
  ssrcEnable := true
  hiddenSize := 16
  numAttentionHeads := 1
  numKvHeads := 1
  qkvOutDim := 48
  qkvAddress := 8192
  queryAddress := 16384
  entries :=
    [⟨⟨0, 1, 4, 0, [], []⟩, ⟨1, [4, 16], 2, true, 0, 128⟩, ⟨2, [4, 16], 2, true, 1024, 128⟩⟩,
      ⟨⟨1, 1, 4, 0, [], []⟩, ⟨3, [4, 16], 2, true, 2048, 128⟩, ⟨4, [4, 16], 2, true, 4096, 128⟩⟩]
  filled := by decide

theorem writes_own_rows_iff_sample : ∃ tiles, sampleBatch.initializeTiles = some tiles ∧
    (sampleBatch.WritesOwnRows tiles ∧ sampleBatch.OwnTensors tiles ↔ sampleBatch.NothingToWrite) ∧
    (sampleBatch.SeparateTensors →
      (sampleBatch.WritesOwnRows tiles ↔ sampleBatch.NothingToWrite)) := by
  obtain ⟨tiles, htiles⟩ := Option.isSome_iff_exists.mp
    (sampleBatch.initializeTiles_isSome (by decide) (by decide) (by decide))
  exact ⟨tiles, htiles, writes_own_rows_iff htiles⟩

/-- Both tokens go to the first request, past its new row, and its values go to its key tensor: the
    second request gets nothing. -/
example : sampleBatch.initializeTiles.map (fun tiles => tiles.map fun tile =>
    (tile.instructions.drop 2).map fun inst => (inst.requestId, inst.srcAddrs)) =
      some [[(0, [160, 192]), (1, []), (0, [160, 192]), (1, [])]] := by decide +kernel

/-- The first new key row of the first request, at address 128, is not written. -/
theorem new_rows_not_written : ¬ ∀ (op : KVCacheConcat) (tiles : List Tile),
    op.initializeTiles = some tiles → op.WritesOwnRows tiles := by
  intro hclaim
  have hstores : (sampleBatch.initializeTiles.any fun tiles => tiles.all fun tile =>
      (keyMovout 0 tile).all fun inst => decide (128 ∉ inst.srcAddrs)) = true := by decide +kernel
  obtain ⟨tiles, htiles, hall⟩ := (Option.any_eq_true _ _).mp hstores
  have hrows := (hclaim sampleBatch tiles htiles).keys 0 _ rfl
  have hdue : 128 ∈ sampleBatch.rowAddresses ⟨1, [4, 16], 2, true, 0, 128⟩ 1 :=
    ⟨0, Nat.zero_lt_one, by decide⟩
  rw [← hrows] at hdue
  obtain ⟨tile, hmem, inst, hinst, hin⟩ := hdue
  have htile := List.all_eq_true.mp hall tile hmem
  rw [hinst] at htile
  exact of_decide_eq_true htile hin

end KVCacheConcat

end Ahasd
