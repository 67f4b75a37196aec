/-
  File:      Ahasd/EDCTables.lean
  Subject:   THE TABLES OF THE DRAFTING CONTROL STAY IN THEIR RANGES (async_queue/EDC.h).

  A PHT index is put together from two averages of three bits and the LLR, whose width is
  configured. The fields are cut to 8 bits, the index to 16, and it is masked by the size of the
  table: none of it loses anything.

  * `avgLow`, `avgHigh`: the averages; `avg_le`: they have three bits, even if the sums wrap;
  * `Indexed`: what the index needs; `calculatePhtIndex_eq`, `Indexed.decode`: the index as a sum,
    and its parts read back from it;
  * `Tidy`: the invariant of the tables, with one lemma an operation;
  * **`edc_tables_tidy`**: it holds after every sequence of operations.
-/
import Ahasd.EDCHistory
import Mathlib.Algebra.Order.BigOperators.Group.List
import Mathlib.Tactic.Linarith
import Mathlib.Tactic.NormNum

namespace Ahasd

namespace EDC

/-! ## 1. The index and its parts -/

/-- `half` of `calculate_pht_index`. -/
def half (e : EDC) : Nat := max 1 (e.lehtSize / 2)

/-- `avg_low`. -/
def avgLow (e : EDC) : Nat :=
  (e.leht.take (min e.half e.lehtSize)).sum % 2 ^ 32 / e.half % 256

/-- `avg_high`. -/
def avgHigh (e : EDC) : Nat :=
  let upperCount := if e.lehtSize > e.half then e.lehtSize - e.half else 0
  if upperCount ≠ 0 then ((e.leht.take e.lehtSize).drop e.half).sum % 2 ^ 32 / upperCount % 256
  else 0

/-- What the index needs: the widths of the configuration, and its parts within them. -/
structure Indexed (e : EDC) : Prop where
  size : 0 < e.lehtSize
  length : e.leht.length = e.lehtSize
  bits : e.llrBits ≤ 8
  llrMax : e.llrMax = 2 ^ e.llrBits - 1
  phtSize : e.phtSize = 2 ^ (6 + e.llrBits)
  mask : e.phtIndexMask = e.phtSize - 1
  entries : ∀ b ∈ e.leht, b ≤ 7
  llr : e.llr ≤ e.llrMax

/-- A sum of entries, wrapped or not, over as many entries is at most 7. -/
theorem avg_le {l : List Nat} {n : Nat} (hl : ∀ b ∈ l, b ≤ 7) (hn : l.length ≤ n) :
    l.sum % 2 ^ 32 / n ≤ 7 := by
  have hsum : l.sum ≤ l.length * 7 := by
    simpa using List.sum_le_card_nsmul l 7 hl
  have hmod := Nat.mod_le l.sum (2 ^ 32)
  have hmul : l.length * 7 ≤ n * 7 := Nat.mul_le_mul_right 7 hn
  exact Nat.div_le_of_le_mul (by omega)

section Index

variable {e : EDC} (I : Indexed e)

include I

theorem Indexed.avgLow_lt : e.avgLow < 8 := by
  have hlength : (e.leht.take (min e.half e.lehtSize)).length ≤ e.half := by
    rw [List.length_take]
    omega
  have havg := avg_le (fun b hb => I.entries b (List.mem_of_mem_take hb)) hlength
  exact (Nat.mod_le _ _).trans_lt (Nat.lt_succ_of_le havg)

theorem Indexed.avgHigh_lt : e.avgHigh < 8 := by
  have hlength : ((e.leht.take e.lehtSize).drop e.half).length ≤
      if e.lehtSize > e.half then e.lehtSize - e.half else 0 := by
    rw [List.length_drop, List.length_take]
    split <;> omega
  have havg := avg_le
    (fun b hb => I.entries b (List.mem_of_mem_take (List.mem_of_mem_drop hb))) hlength
  unfold avgHigh
  dsimp only
  generalize (if e.lehtSize > e.half then e.lehtSize - e.half else 0) = upperCount at havg
  split
  · exact (Nat.mod_le _ _).trans_lt (Nat.lt_succ_of_le havg)
  · decide

theorem Indexed.llr_lt : e.llr < 2 ^ e.llrBits := by
  have hpos := Nat.two_pow_pos e.llrBits
  have hmax := I.llrMax
  have hllr := I.llr
  omega

/-- **The index is the sum of its parts**: the concatenation overlaps nowhere, and neither the mask
    nor the 16 bits cut anything off. -/
theorem Indexed.calculatePhtIndex_eq : e.calculatePhtIndex =
    (e.avgHigh * 8 + e.avgLow) * 2 ^ e.llrBits + e.llr := by
  have hhigh := I.avgHigh_lt
  have hlow := I.avgLow_lt
  have hllr := I.llr_lt
  have hbits := I.bits
  have hand : e.llr &&& e.llrMax = e.llr := by
    rw [I.llrMax, Nat.and_two_pow_sub_one_eq_mod, Nat.mod_eq_of_lt hllr]
  have hjoin : e.avgHigh <<< (3 + e.llrBits) ||| e.avgLow <<< e.llrBits ||| e.llr =
      (e.avgHigh * 8 + e.avgLow) * 2 ^ e.llrBits + e.llr := by
    have hgroup : e.avgHigh <<< (3 + e.llrBits) ||| e.avgLow <<< e.llrBits =
        (e.avgHigh * 8 + e.avgLow) <<< e.llrBits := by
      have hinner : e.avgHigh <<< 3 + e.avgLow = e.avgHigh <<< 3 ||| e.avgLow :=
        Nat.shiftLeft_add_eq_or_of_lt hlow _
      rw [Nat.shiftLeft_add, ← Nat.shiftLeft_or_distrib, ← hinner, Nat.shiftLeft_eq e.avgHigh 3]
    rw [hgroup, ← Nat.shiftLeft_add_eq_or_of_lt hllr, Nat.shiftLeft_eq]
  have hlt : (e.avgHigh * 8 + e.avgLow) * 2 ^ e.llrBits + e.llr < 2 ^ (6 + e.llrBits) := by
    have htop : (e.avgHigh * 8 + e.avgLow + 1) * 2 ^ e.llrBits ≤ 64 * 2 ^ e.llrBits :=
      Nat.mul_le_mul_right _ (by omega)
    rw [Nat.succ_mul] at htop
    rw [Nat.pow_add]
    exact (Nat.add_lt_add_left hllr _).trans_le htop
  have h16 : 2 ^ (6 + e.llrBits) ≤ 65536 :=
    (Nat.pow_le_pow_right two_pos (by omega : 6 + e.llrBits ≤ 16)).trans (by norm_num)
  have hsize := I.size
  unfold calculatePhtIndex
  rw [if_neg (by omega)]
  show ((e.avgHigh <<< (3 + e.llrBits) ||| e.avgLow <<< e.llrBits ||| (e.llr &&& e.llrMax)) &&&
    e.phtIndexMask) % 65536 = _
  rw [hand, hjoin, I.mask, I.phtSize, Nat.and_two_pow_sub_one_eq_mod, Nat.mod_eq_of_lt hlt,
    Nat.mod_eq_of_lt (hlt.trans_le h16)]

/-- **The parts are read back from the index.** -/
theorem Indexed.decode : e.calculatePhtIndex / 2 ^ (3 + e.llrBits) = e.avgHigh ∧
    e.calculatePhtIndex / 2 ^ e.llrBits % 8 = e.avgLow ∧
    e.calculatePhtIndex % 2 ^ e.llrBits = e.llr := by
  have hlow := I.avgLow_lt
  have hllr := I.llr_lt
  have hgroup : e.calculatePhtIndex / 2 ^ e.llrBits = e.avgHigh * 8 + e.avgLow := by
    rw [I.calculatePhtIndex_eq, Nat.mul_comm, Nat.mul_add_div (Nat.two_pow_pos _),
      Nat.div_eq_of_lt hllr, Nat.add_zero]
  refine ⟨?_, ?_, ?_⟩
  · rw [Nat.add_comm 3, Nat.pow_add, ← Nat.div_div_eq_div_mul, hgroup]
    omega
  · rw [hgroup]
    omega
  · rw [I.calculatePhtIndex_eq, Nat.mul_comm, Nat.mul_add_mod, Nat.mod_eq_of_lt hllr]

theorem Indexed.calculatePhtIndex_lt : e.calculatePhtIndex < e.phtSize := by
  have hhigh := I.avgHigh_lt
  have hgroup := I.decode.1
  rw [I.phtSize]
  have hdiv : e.calculatePhtIndex / 2 ^ (3 + e.llrBits) < 2 ^ 3 := hgroup.trans_lt hhigh
  have hlt := Nat.lt_mul_of_div_lt hdiv (Nat.two_pow_pos _)
  rwa [← Nat.pow_add, ← Nat.add_assoc] at hlt

end Index

/-! ## 2. The invariant -/

/-- **The invariant of the tables.** -/
structure Tidy (e : EDC) : Prop extends Indexed e where
  hMax : 0 < e.hMax
  sized : e.Sized
  committed : ∀ b ∈ e.lceht, b ≤ 7
  lehtPtr : e.lehtPtr < e.lehtSize
  lcehtPtr : e.lcehtPtr < e.lehtSize
  counters : e.pht.length = e.phtSize
  polls : e.llr = min e.llrMax e.pendingPredictionIndices.length
  indices : ∀ i ∈ e.pendingPredictionIndices, i < e.phtSize
  hits : e.correctPredictions + e.pendingPredictionIndices.length ≤ e.totalPredictions

theorem new_tidy {hMax : ℚ} (h : 0 < hMax) (lehtSize llrBits : Nat) :
    Tidy (new hMax lehtSize llrBits) := by
  have hsize : 0 < max 1 lehtSize := by omega
  have hbits : min (max llrBits 1) 8 ≤ 8 := min_le_right _ _
  have hzero : ∀ b ∈ List.replicate (max 1 lehtSize) 0, b ≤ 7 := by
    intro b hb
    rw [List.eq_of_mem_replicate hb]
    exact Nat.zero_le 7
  have hllr : (new hMax lehtSize llrBits).llrMax = 2 ^ min (max llrBits 1) 8 - 1 := by
    show ((1 <<< min (max llrBits 1) 8) - 1) % 256 = _
    have hle : 2 ^ min (max llrBits 1) 8 ≤ 2 ^ 8 := Nat.pow_le_pow_right two_pos hbits
    rw [Nat.one_shiftLeft]
    exact Nat.mod_eq_of_lt (by omega)
  have hpht : (new hMax lehtSize llrBits).phtSize = 2 ^ (6 + min (max llrBits 1) 8) := by
    show 1 <<< min (3 + 3 + min (max llrBits 1) 8) 16 = _
    rw [Nat.one_shiftLeft, min_eq_left (by omega)]
  exact {
    size := hsize
    length := List.length_replicate
    bits := hbits
    llrMax := hllr
    phtSize := hpht
    mask := rfl
    entries := hzero
    llr := Nat.zero_le _
    hMax := h
    sized := new_sized hMax lehtSize llrBits
    committed := hzero
    lehtPtr := hsize
    lcehtPtr := hsize
    counters := List.length_replicate
    polls := (Nat.min_zero _).symm
    indices := fun i hi => absurd hi List.not_mem_nil
    hits := le_rfl }

theorem entropyToBucket_le {e : EDC} (h : 0 < e.hMax) (entropy : ℚ) :
    e.entropyToBucket entropy ≤ 7 := by
  unfold entropyToBucket
  dsimp only
  generalize (if entropy < 0 then 0 else entropy) = x
  have hclamped : (if x > e.hMax then e.hMax else x) ≤ e.hMax := by
    split
    · exact le_rfl
    · next hle => exact not_lt.mp hle
  generalize (if x > e.hMax then e.hMax else x) = y at hclamped ⊢
  have hshare : y / e.hMax ≤ 1 := (div_le_one h).mpr hclamped
  have hfloor : ⌊y / e.hMax * (799 / 100)⌋₊ < 8 := by
    rw [Nat.floor_lt' (by norm_num)]
    push_cast
    linarith
  omega

section Operations

variable {e : EDC} (T : Tidy e)

include T

/-- A poll writes a bucket, counts the LLR up as far as it goes, and remembers one prediction. -/
theorem Tidy.shouldContinueDrafting (avgEntropy : ℚ) :
    Tidy (e.shouldContinueDrafting avgEntropy).2 := by
  have hpolls := T.polls
  have hllr : (if e.llr < e.llrMax then e.llr + 1 else e.llr) =
      min e.llrMax (e.pendingPredictionIndices.length + 1) := by
    split <;> omega
  have I : Indexed (e.recordBucket avgEntropy) :=
    { size := T.size
      length := List.length_set.trans T.length
      bits := T.bits
      llrMax := T.llrMax
      phtSize := T.phtSize
      mask := T.mask
      entries := fun b hb => by
        rcases List.mem_or_eq_of_mem_set hb with hb | rfl
        · exact T.entries b hb
        · exact entropyToBucket_le T.hMax avgEntropy
      llr := hllr.trans_le (min_le_left _ _) }
  have hindex := I.calculatePhtIndex_lt
  have hhits := T.hits
  have hlength : (e.pendingPredictionIndices ++ [(e.recordBucket avgEntropy).predict.1]).length =
      e.pendingPredictionIndices.length + 1 := List.length_append
  exact {
    size := I.size
    length := I.length
    bits := I.bits
    llrMax := I.llrMax
    phtSize := I.phtSize
    mask := I.mask
    entries := I.entries
    llr := I.llr
    hMax := T.hMax
    sized := (e.poll_polled avgEntropy).sized T.sized
    committed := T.committed
    lehtPtr := Nat.mod_lt _ T.size
    lcehtPtr := T.lcehtPtr
    counters := T.counters
    polls := by
      rw [← hlength] at hllr
      exact hllr
    indices := fun i hi => by
      rcases List.mem_append.mp hi with hi | hi
      · exact T.indices i hi
      · rw [List.mem_singleton.mp hi]
        exact hindex
    hits := by
      show e.correctPredictions + (e.pendingPredictionIndices ++ [_]).length ≤
        e.totalPredictions + 1
      rw [hlength]
      omega }

omit T in
/-- The training counts a hit at most for each prediction. -/
theorem trainPending_hits (full : Bool) (accepted : Nat) : ∀ (i : Nat) (ps : List (Nat × Bool))
    (e : EDC), (trainPending full accepted i ps e).correctPredictions ≤
      e.correctPredictions + ps.length
  | _, [], _ => le_rfl
  | i, (index, value) :: ps, e => by
      unfold trainPending
      refine (trainPending_hits full accepted (i + 1) ps _).trans ?_
      dsimp only
      rw [List.length_cons]
      split <;> omega

omit T in
theorem foldl_trainCounter_length (ps : List (Nat × Bool)) (pht : List CounterState) :
    (ps.foldl trainCounter pht).length = pht.length := by
  induction ps generalizing pht with
  | nil => rfl
  | cons p ps ih => rw [List.foldl_cons, ih, trainCounter, List.length_modify]

/-- A verification trains and forgets the predictions, and commits the tables or goes back. -/
theorem Tidy.updateOnVerification (full : Bool) (accepted : Nat) :
    Tidy (e.updateOnVerification full accepted) := by
  have hsized := update_sized full accepted T.sized
  have hpht := e.update_pht full accepted
  have hcounters : (e.updateOnVerification full accepted).pht.length = e.phtSize := by
    rw [hpht, foldl_trainCounter_length, T.counters]
  have hhits : (trainPending full accepted 0 e.pending e).correctPredictions ≤
      e.totalPredictions := by
    have h := trainPending_hits full accepted 0 e.pending e
    have hall := T.hits
    have hlength : e.pending.length ≤ e.pendingPredictionIndices.length := by
      rw [pending, List.length_zip]
      exact min_le_left _ _
    omega
  have hllr : 0 ≤ e.llrMax := Nat.zero_le _
  unfold EDC.updateOnVerification at hsized hcounters ⊢
  rw [trainPending_eq] at hsized hcounters ⊢
  cases full with
  | true =>
      exact ⟨⟨T.size, T.length, T.bits, T.llrMax, T.phtSize, T.mask, T.entries, hllr⟩, T.hMax, hsized,
        T.entries, T.lehtPtr, T.lehtPtr, hcounters, (Nat.min_zero _).symm,
        fun i hi => absurd hi List.not_mem_nil, hhits⟩
  | false =>
      exact ⟨⟨T.size, T.sized.lceht, T.bits, T.llrMax, T.phtSize, T.mask, T.committed, hllr⟩, T.hMax,
        hsized, T.committed, T.lcehtPtr, T.lcehtPtr, hcounters, (Nat.min_zero _).symm,
        fun i hi => absurd hi List.not_mem_nil, hhits⟩

/-- A reset zeroes the tables, and keeps the counters and the statistics. -/
theorem Tidy.reset : Tidy e.reset := by
  have hzero : ∀ l : List Nat, ∀ b ∈ l.map fun _ => 0, b ≤ 7 := by
    intro l b hb
    obtain ⟨_, _, rfl⟩ := List.mem_map.mp hb
    exact Nat.zero_le 7
  have hhits := T.hits
  exact ⟨⟨T.size, (List.length_map _).trans T.length, T.bits, T.llrMax, T.phtSize, T.mask, hzero _,
      Nat.zero_le _⟩, T.hMax, reset_sized T.sized, hzero _, T.size, T.size, T.counters,
    (Nat.min_zero _).symm, fun i hi => absurd hi List.not_mem_nil,
    (Nat.le_add_right _ _).trans hhits⟩

theorem Tidy.apply (op : Op) : Tidy (e.apply op) := by
  cases op with
  | shouldContinueDrafting avgEntropy => exact T.shouldContinueDrafting avgEntropy
  | updateOnVerification full accepted => exact T.updateOnVerification full accepted
  | reset => exact T.reset

end Operations

theorem applyAll_tidy (ops : List Op) {e : EDC} (T : Tidy e) : Tidy (e.applyAll ops) := by
  induction ops generalizing e with
  | nil => exact T
  | cons op ops ih => exact ih (T.apply op)

/-- **The tables of the drafting control**, for every configuration and every sequence of
    operations: the entries are buckets and the pointers are in their tables; the PHT index is in
    its table, and its parts are read back from it; the LLR counts the pending predictions as far as
    it goes; the two pending lists go in step; there are no more hits than predictions. -/
theorem edc_tables_tidy {hMax : ℚ} (h : 0 < hMax) (lehtSize llrBits : Nat) (ops : List Op) :
    let e := (new hMax lehtSize llrBits).applyAll ops
    ((∀ b ∈ e.leht, b ≤ 7) ∧ ∀ b ∈ e.lceht, b ≤ 7) ∧
      (e.lehtPtr < e.lehtSize ∧ e.lcehtPtr < e.lehtSize) ∧
      e.calculatePhtIndex < e.phtSize ∧
      (e.calculatePhtIndex / 2 ^ (3 + e.llrBits) = e.avgHigh ∧
        e.calculatePhtIndex / 2 ^ e.llrBits % 8 = e.avgLow ∧
        e.calculatePhtIndex % 2 ^ e.llrBits = e.llr) ∧
      e.llr = min e.llrMax e.pendingPredictionIndices.length ∧
      e.pendingPredictionIndices.length = e.pendingPredictionValues.length ∧
      e.correctPredictions ≤ e.totalPredictions := by
  have T := applyAll_tidy ops (new_tidy h lehtSize llrBits)
  exact ⟨⟨T.entries, T.committed⟩, ⟨T.lehtPtr, T.lcehtPtr⟩, T.calculatePhtIndex_lt, T.decode, T.polls,
    T.sized.inStep, (Nat.le_add_right _ _).trans T.hits⟩

/-- Two slots and one LLR bit: after three polls the LLR is at its end and the averages are 2 and
    3. -/
theorem edc_tables_tidy_sample :
    let e := (new 10 2 1).applyAll
      [.shouldContinueDrafting 2, .shouldContinueDrafting 3, .shouldContinueDrafting 5]
    e.llr = 1 ∧ e.calculatePhtIndex < 128 ∧ e.avgHigh = 2 ∧ e.avgLow = 3 := by
  obtain ⟨_, _, hindex, ⟨hhigh, hlow, _⟩, hllr, _⟩ := edc_tables_tidy
    (show (0 : ℚ) < 10 by norm_num) 2 1
    [.shouldContinueDrafting 2, .shouldContinueDrafting 3, .shouldContinueDrafting 5]
  refine ⟨hllr.trans (by decide +kernel), ?_, hhigh.symm.trans (by decide +kernel),
    hlow.symm.trans (by decide +kernel)⟩
  exact hindex

end EDC

end Ahasd
