/-
  File:      Ahasd/Backends/Hashing.lean
  Subject:   WHICH CHANNEL A REQUEST GOES TO: `ipoly_hash_function` of `Hashing.cc` and
             `get_channel_id` of `Dram.cc`.

  The channel is a hash of the number of the request's block. For 16, 32 and 64 channels each bit of
  the hash is the parity of some bits of the number; with fewer channels the hash for 16 is taken
  modulo their number. The source says of the hash that it is free of conflicts at every stride
  that is a power of two.

  * **`conflict_free_iff`**: it is up to the stride `2 ^ lastStride`, and at no larger one;
  * **`spread`**: with fewer channels, 16 blocks at such a stride put `⌊16 / n⌋` or `⌈16 / n⌉`
    requests on each.
-/
import Ahasd.PIMBackend
import Ahasd.Lib.XorHash

namespace Ahasd

/-! ## 1. The hash -/

/-- The taps of the bits of the hash for 16 banks, bit 0 first. -/
def ipoly16 : List (List Nat) :=
  [[11, 10, 9, 8, 6, 4, 3, 0],
    [12, 8, 7, 6, 5, 3, 1, 0],
    [9, 8, 7, 6, 4, 2, 1],
    [10, 9, 8, 7, 5, 3, 2]]

/-- The taps for 32 banks. -/
def ipoly32 : List (List Nat) :=
  [[13, 12, 11, 10, 9, 6, 5, 3, 0],
    [14, 13, 12, 11, 10, 7, 6, 4, 1],
    [14, 10, 9, 8, 7, 6, 3, 2, 0],
    [11, 10, 9, 8, 7, 4, 3, 1],
    [12, 11, 10, 9, 8, 5, 4, 2]]

/-- The taps for 64 banks. -/
def ipoly64 : List (List Nat) :=
  [[18, 17, 16, 15, 12, 10, 6, 5, 0],
    [15, 13, 12, 11, 10, 7, 5, 1, 0],
    [16, 14, 13, 12, 11, 8, 6, 2, 1],
    [17, 15, 14, 13, 12, 9, 7, 3, 2],
    [18, 16, 15, 14, 13, 10, 8, 4, 3],
    [17, 16, 15, 14, 11, 9, 5, 4]]

/-- The new index: each bit is a parity of the higher bits and the bit of the old index. -/
def newIndex (eqs : List (List Nat)) (higherBits index : Nat) : Nat :=
  XorHash.hash eqs higherBits ^^^ index % 2 ^ eqs.length

/-- `ipoly_hash_function`; any other number of banks ends the program. -/
def ipolyHashFunction (higherBits index bankSetNum : Nat) : Option Nat :=
  if bankSetNum = 16 then some (newIndex ipoly16 higherBits index)
  else if bankSetNum = 32 then some (newIndex ipoly32 higherBits index)
  else if bankSetNum = 64 then some (newIndex ipoly64 higherBits index)
  else none

/-- `get_channel_id`, with the channels and the request size of the configuration. -/
def getChannelId (nCh dramReqSize : Nat) (access : MemoryAccess) : Option Nat :=
  if 16 ≤ nCh then ipolyHashFunction (access.dramAddress / dramReqSize) 0 nCh
  else (ipolyHashFunction (access.dramAddress / dramReqSize) 0 16).map (· % nCh)

/-! ## 2. Strides -/

/-- The taps for a number of banks. -/
def taps (bankSetNum : Nat) : List (List Nat) :=
  if bankSetNum = 16 then ipoly16 else if bankSetNum = 32 then ipoly32 else ipoly64

/-- The last stride, as a power of two, at which the hash is free of conflicts. -/
def lastStride (bankSetNum : Nat) : Nat :=
  if bankSetNum = 16 then 9 else if bankSetNum = 32 then 10 else 13

/-- The sets of banks the hash is for, by the bits of an index. -/
def hashed (k : Nat) : Prop := k = 4 ∨ k = 5 ∨ k = 6

theorem taps_length {k : Nat} (hk : hashed k) : (taps (2 ^ k)).length = k := by
  rcases hk with rfl | rfl | rfl <;> rfl

/-- The polynomial of a hash: `x⁴ + x + 1`, `x⁵ + x² + 1` and `x⁶ + x + 1`. -/
def poly (k : Nat) : Nat := if k = 4 then 19 else if k = 5 then 37 else 67

/-- The equations compute the remainders of the powers of `x`. -/
theorem remainders {k : Nat} (hk : hashed k) :
    XorHash.Remainders (taps (2 ^ k)) (poly k) k (lastStride (2 ^ k) + k) := by
  have hall : ∀ t < lastStride (2 ^ k) + k - 1, XorHash.hash (taps (2 ^ k)) (2 ^ (t + 1)) =
      XorHash.timesX (poly k) k (XorHash.hash (taps (2 ^ k)) (2 ^ t)) := by
    rcases hk with rfl | rfl | rfl <;> decide +kernel
  exact fun t ht => hall t (by omega)

/-- Within the stride the hash of a window is zero on nothing but zero. -/
theorem hash_window {k : Nat} (hk : hashed k) : ∀ j ≤ lastStride (2 ^ k), ∀ i < 2 ^ k,
    XorHash.hash (taps (2 ^ k)) (i <<< j) = 0 → i = 0 := by
  have hdiv : ∀ a < 2 ^ (taps (2 ^ k)).length, XorHash.timesX (poly k) k a = 0 → a = 0 := by
    rcases hk with rfl | rfl | rfl <;> decide +kernel
  have hfirst : ∀ i < 2 ^ k, XorHash.hash (taps (2 ^ k)) i = 0 → i = 0 := by
    rcases hk with rfl | rfl | rfl <;> decide +kernel
  exact fun j hj => (remainders hk).window hdiv hfirst j (by omega)

/-- A window beyond the stride has a bit that is no tap. -/
theorem tap_lt {k : Nat} (hk : hashed k) :
    ∀ eq ∈ taps (2 ^ k), ∀ t ∈ eq, t < lastStride (2 ^ k) + k := by
  rcases hk with rfl | rfl | rfl <;> decide

theorem hash_beyond {k j : Nat} (hk : hashed k) (hj : lastStride (2 ^ k) < j) :
    XorHash.hash (taps (2 ^ k)) (2 ^ (k - 1) <<< j) = 0 := by
  have hpos : 0 < k := by rcases hk with rfl | rfl | rfl <;> decide
  rw [Nat.shiftLeft_eq, ← Nat.pow_add]
  refine XorHash.hash_eq_zero fun eq heq ht => ?_
  have hlt := tap_lt hk eq heq _ ht
  omega

/-- What `get_channel_id` computes where the hash is for the number of channels. -/
theorem getChannelId_hashed {k : Nat} (hk : hashed k) (dramReqSize : Nat) (access : MemoryAccess) :
    getChannelId (2 ^ k) dramReqSize access =
      some (XorHash.hash (taps (2 ^ k)) (access.dramAddress / dramReqSize)) := by
  rcases hk with rfl | rfl | rfl <;>
    simp [getChannelId, ipolyHashFunction, newIndex, taps]

theorem hash_zero_iff {k j : Nat} (hk : hashed k) :
    (∀ i < 2 ^ k, XorHash.hash (taps (2 ^ k)) (i <<< j) = 0 → i = 0) ↔ j ≤ lastStride (2 ^ k) := by
  constructor
  · intro h
    refine Nat.le_of_not_lt fun hj => ?_
    have hpos : 0 < k := by rcases hk with rfl | rfl | rfl <;> decide
    have hz := h (2 ^ (k - 1)) (Nat.pow_lt_pow_right Nat.one_lt_two (by omega)) (hash_beyond hk hj)
    exact absurd hz (Nat.two_pow_pos _).ne'
  · exact hash_window hk j

/-- The address of a block, and an offset in it. -/
theorem block_of_address {dramReqSize offset : Nat} (hoff : offset < dramReqSize) (block : Nat) :
    (block * dramReqSize + offset) / dramReqSize = block := by
  rw [Nat.mul_comm, Nat.mul_add_div (Nat.zero_lt_of_lt hoff), Nat.div_eq_of_lt hoff, Nat.add_zero]

/-- **The hash is free of conflicts at exactly the strides up to `2 ^ lastStride`**: as many blocks
    as there are channels, at a stride of `2 ^ j` and wherever they begin, go to different channels
    if and only if `j` is at most 9, 10 and 13 for 16, 32 and 64 channels. -/
theorem conflict_free_iff {k : Nat} (hk : hashed k) {dramReqSize j high low offset : Nat}
    (hlow : low < 2 ^ j) (hoff : offset < dramReqSize) (access : MemoryAccess) :
    (∀ c < 2 ^ k, ∃! i, i < 2 ^ k ∧ getChannelId (2 ^ k) dramReqSize
        { access with
          dramAddress := (high * 2 ^ (j + k) + i * 2 ^ j + low) * dramReqSize + offset } =
      some c) ↔ j ≤ lastStride (2 ^ k) := by
  simp only [getChannelId_hashed hk, block_of_address hoff, Option.some.injEq]
  rw [XorHash.existsUnique_iff (taps_length hk) hlow]
  exact hash_zero_iff hk

/-- A read of block 0. -/
def sampleRead : MemoryAccess :=
  { id := 0, dramAddress := 0, size := 32, write := false, request := true, coreId := 0 }

theorem conflict_free_sample : 9 ≤ lastStride (2 ^ 4) ∧ ∀ c < 2 ^ 4, ∃! i, i < 2 ^ 4 ∧
    getChannelId (2 ^ 4) 32
      { sampleRead with dramAddress := (3 * 2 ^ (9 + 4) + i * 2 ^ 9 + 5) * 32 + 4 } = some c :=
  ⟨by decide, (conflict_free_iff (.inl rfl) (by decide) (by decide) sampleRead).mpr (by decide)⟩

/-! ## 3. Fewer channels -/

/-- What `get_channel_id` computes with fewer channels. -/
theorem getChannelId_few {nCh : Nat} (hn : nCh < 16) (dramReqSize : Nat) (access : MemoryAccess) :
    getChannelId nCh dramReqSize access =
      some (XorHash.hash ipoly16 (access.dramAddress / dramReqSize) % nCh) := by
  simp [getChannelId, ipolyHashFunction, newIndex, Nat.not_le.mpr hn]

/-- The numbers of channels that `get_channel_id` accepts. -/
def acceptedChannels (nCh : Nat) : Prop := (0 < nCh ∧ nCh ≤ 16) ∨ nCh = 32 ∨ nCh = 64

/-- It gives one of them. -/
theorem getChannelId_lt {nCh : Nat} (h : acceptedChannels nCh) (dramReqSize : Nat)
    (access : MemoryAccess) : ∃ id, getChannelId nCh dramReqSize access = some id ∧ id < nCh := by
  have hhashed : ∀ {k : Nat}, hashed k → 2 ^ k = nCh →
      ∃ id, getChannelId nCh dramReqSize access = some id ∧ id < nCh := by
    rintro k hk rfl
    refine ⟨_, getChannelId_hashed hk dramReqSize access, ?_⟩
    have hlt := XorHash.hash_lt (taps (2 ^ k)) (access.dramAddress / dramReqSize)
    rwa [taps_length hk] at hlt
  rcases h with ⟨hpos, hle⟩ | rfl | rfl
  · rcases Nat.lt_or_eq_of_le hle with hlt | rfl
    · exact ⟨_, getChannelId_few hlt dramReqSize access, Nat.mod_lt _ hpos⟩
    · exact hhashed (.inl rfl) rfl
  · exact hhashed (.inr (.inl rfl)) rfl
  · exact hhashed (.inr (.inr rfl)) rfl

/-- The residues of the numbers below 16 are spread evenly. -/
theorem residues_spread : ∀ nCh < 16, ∀ c < nCh,
    16 / nCh ≤ ((Finset.range 16).filter fun v => v % nCh = c).card ∧
      ((Finset.range 16).filter fun v => v % nCh = c).card ≤ (16 + nCh - 1) / nCh := by
  decide

/-- **With fewer than 16 channels the load is even**: of 16 blocks at a stride of `2 ^ j`, `j` at
    most 9, every channel gets `16 / nCh`, rounded down or up. -/
theorem spread {nCh : Nat} (hn : nCh < 16) {dramReqSize j high low offset : Nat} (hj : j ≤ 9)
    (hlow : low < 2 ^ j) (hoff : offset < dramReqSize) (access : MemoryAccess) {c : Nat}
    (hc : c < nCh) :
    let load := ((Finset.range 16).filter fun i => getChannelId nCh dramReqSize
        { access with
          dramAddress := (high * 2 ^ (j + 4) + i * 2 ^ j + low) * dramReqSize + offset } =
      some c).card
    16 / nCh ≤ load ∧ load ≤ (16 + nCh - 1) / nCh := by
  intro load
  let hashOf := fun i => XorHash.hash ipoly16 (high * 2 ^ (j + 4) + i * 2 ^ j + low)
  have hload : load = ((Finset.range 16).filter fun i => hashOf i % nCh = c).card := by
    simp only [load, hashOf, getChannelId_few hn, block_of_address hoff, Option.some.injEq]
  -- the 16 blocks have the 16 values of the hash
  have honce : ∀ v < 16, ∃! i, i < 16 ∧ hashOf i = v :=
    (XorHash.existsUnique_iff (taps_length (.inl rfl)) hlow).mpr
      ((hash_zero_iff (.inl rfl)).mpr hj)
  have hcard : ((Finset.range 16).filter fun i => hashOf i % nCh = c).card =
      ((Finset.range 16).filter fun v => v % nCh = c).card := by
    refine Finset.card_bij (fun i _ => hashOf i) ?_ ?_ ?_
    · intro i hi
      have hlt : hashOf i < 16 := XorHash.hash_lt ipoly16 _
      simp only [Finset.mem_filter, Finset.mem_range] at hi ⊢
      exact ⟨hlt, hi.2⟩
    · intro a ha b hb hab
      simp only [Finset.mem_filter, Finset.mem_range] at ha hb
      exact (honce (hashOf b) (XorHash.hash_lt ipoly16 _)).unique ⟨ha.1, hab⟩ ⟨hb.1, rfl⟩
    · intro v hv
      simp only [Finset.mem_filter, Finset.mem_range] at hv
      obtain ⟨i, ⟨hi, rfl⟩, -⟩ := honce v hv.1
      exact ⟨i, by simpa using ⟨hi, hv.2⟩, rfl⟩
  rw [hload, hcard]
  exact residues_spread nCh hn c hc

theorem spread_sample :
    let load := ((Finset.range 16).filter fun i => getChannelId 3 32
        { sampleRead with dramAddress := (7 * 2 ^ (2 + 4) + i * 2 ^ 2 + 1) * 32 + 4 } =
      some 2).card
    16 / 3 ≤ load ∧ load ≤ (16 + 3 - 1) / 3 :=
  spread (by decide) (by decide) (by decide) (by decide) sampleRead (by decide)

end Ahasd
