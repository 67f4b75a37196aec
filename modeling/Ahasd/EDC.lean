/-
  File:      Ahasd/EDC.lean
  Subject:   THE ENTROPY-HISTORY-AWARE DRAFTING CONTROL (async_queue/EDC.h).

  The drafting predictor: a circular table of entropy buckets (LEHT) with its committed copy
  (LCEHT), the leading length register (LLR), a table of two-bit counters (PHT) and the list of
  predictions not yet trained. The source's `float` is an exact rational here.

  * `shouldContinueDrafting`: one poll -- records a bucket, predicts, remembers the prediction;
  * `updateOnVerification`: trains every remembered prediction, then commits or rolls back;
  * `EDC.Polled`: what a row of polls with one entropy leaves behind (a round's planning loop);
  * `update_*`: what an update does to each table. No later proof unfolds the two operations.
-/
import Ahasd.Lib.CircularLog
import Mathlib.Data.Rat.Floor

namespace Ahasd

open CircularLog

/-- States of a two-bit saturating counter. -/
inductive CounterState where
  | stronglyNotTaken
  | weaklyNotTaken
  | weaklyTaken
  | stronglyTaken
  deriving DecidableEq, Repr

namespace CounterState

/-- The counter's value (`static_cast<uint8_t>`). -/
def val : CounterState → Nat
  | stronglyNotTaken => 0
  | weaklyNotTaken => 1
  | weaklyTaken => 2
  | stronglyTaken => 3

/-- `update_counter`: one up when taken, one down otherwise, saturating at both ends. -/
def update : CounterState → Bool → CounterState
  | stronglyNotTaken, true => weaklyNotTaken
  | weaklyNotTaken, true => weaklyTaken
  | weaklyTaken, true => stronglyTaken
  | stronglyTaken, true => stronglyTaken
  | stronglyNotTaken, false => stronglyNotTaken
  | weaklyNotTaken, false => stronglyNotTaken
  | weaklyTaken, false => weaklyNotTaken
  | stronglyTaken, false => weaklyTaken

end CounterState

/-- The state of the drafting control. -/
structure EDC where
  leht : List Nat
  lceht : List Nat
  llr : Nat
  pht : List CounterState
  totalPredictions : Nat
  correctPredictions : Nat
  suppressedDrafts : Nat
  totalDrafts : Nat
  hMax : ℚ
  lehtSize : Nat
  llrBits : Nat
  llrMax : Nat
  phtSize : Nat
  phtIndexMask : Nat
  lehtPtr : Nat
  lcehtPtr : Nat
  pendingPredictionIndices : List Nat
  pendingPredictionValues : List Bool

namespace EDC

/-! ## 1. The source's functions -/

/-- `compute_pht_size`: two 3-bit averages and the LLR, capped at 16 bits. -/
def computePhtSize (llrBits : Nat) : Nat :=
  1 <<< min (3 + 3 + llrBits) 16

/-- The constructor: sizes are clamped, tables zeroed, counters weakly taken. -/
def new (hMax : ℚ) (lehtSize llrBits : Nat) : EDC :=
  let size := max 1 lehtSize
  let bits := min (max llrBits 1) 8
  let phtSize := computePhtSize bits
  { leht := List.replicate size 0
    lceht := List.replicate size 0
    llr := 0
    pht := List.replicate phtSize .weaklyTaken
    totalPredictions := 0
    correctPredictions := 0
    suppressedDrafts := 0
    totalDrafts := 0
    hMax := hMax
    lehtSize := size
    llrBits := bits
    llrMax := ((1 <<< bits) - 1) % 256
    phtSize := phtSize
    phtIndexMask := phtSize - 1
    lehtPtr := 0
    lcehtPtr := 0
    pendingPredictionIndices := []
    pendingPredictionValues := [] }

/-- `entropy_to_bucket`: clamp to `[0, h_max]`, scale to eight buckets, truncate. -/
def entropyToBucket (e : EDC) (entropy : ℚ) : Nat :=
  let entropy := if entropy < 0 then 0 else entropy
  let entropy := if entropy > e.hMax then e.hMax else entropy
  ⌊entropy / e.hMax * (799 / 100)⌋₊ % 256

/-- `calculate_pht_index`: `{avg(upper half), avg(lower half), LLR}`; the sums have 32 bits. -/
def calculatePhtIndex (e : EDC) : Nat :=
  if e.lehtSize = 0 then 0
  else
    let half := max 1 (e.lehtSize / 2)
    let sumLow := (e.leht.take (min half e.lehtSize)).sum % 2 ^ 32
    let avgLow := sumLow / half % 256
    let upperCount := if e.lehtSize > half then e.lehtSize - half else 0
    let sumHigh := ((e.leht.take e.lehtSize).drop half).sum % 2 ^ 32
    let avgHigh := if upperCount ≠ 0 then sumHigh / upperCount % 256 else 0
    let index := (avgHigh <<< (3 + e.llrBits)) ||| (avgLow <<< e.llrBits) |||
      (e.llr &&& e.llrMax)
    (index &&& e.phtIndexMask) % 65536

/-- The first half of `should_continue_drafting`: the bucket enters LEHT, the LLR counts it. -/
def recordBucket (e : EDC) (avgEntropy : ℚ) : EDC :=
  { e with
    totalDrafts := e.totalDrafts + 1
    leht := e.leht.set e.lehtPtr (e.entropyToBucket avgEntropy)
    lehtPtr := (e.lehtPtr + 1) % e.lehtSize
    llr := if e.llr < e.llrMax then e.llr + 1 else e.llr }

/-- The prediction of the current history: the counter's index and its upper bit. -/
def predict (e : EDC) : Nat × Bool :=
  let phtIndex := e.calculatePhtIndex
  (phtIndex, decide (2 ≤ (e.pht.getD phtIndex .weaklyTaken).val))

/-- `should_continue_drafting`: one poll. -/
def shouldContinueDrafting (e : EDC) (avgEntropy : ℚ) : Bool × EDC :=
  let e := e.recordBucket avgEntropy
  let phtIndex := e.predict.1
  let shouldContinue := e.predict.2
  (shouldContinue,
    { e with
      totalPredictions := e.totalPredictions + 1
      pendingPredictionIndices := e.pendingPredictionIndices ++ [phtIndex]
      pendingPredictionValues := e.pendingPredictionValues ++ [shouldContinue]
      suppressedDrafts := if shouldContinue then e.suppressedDrafts else e.suppressedDrafts + 1 })

/-- What verification says about prediction `i`: the token it would have added was accepted. -/
def actualTaken (fullyAccepted : Bool) (acceptedCount i : Nat) : Bool :=
  fullyAccepted || decide (acceptedCount > i + 1)

/-- The training loop of `update_on_verification`, from prediction `i` on. -/
def trainPending (fullyAccepted : Bool) (acceptedCount : Nat) :
    Nat → List (Nat × Bool) → EDC → EDC
  | _, [], e => e
  | i, (phtIndex, value) :: rest, e =>
      let taken := actualTaken fullyAccepted acceptedCount i
      trainPending fullyAccepted acceptedCount (i + 1) rest
        { e with
          correctPredictions :=
            if value = taken then e.correctPredictions + 1 else e.correctPredictions
          pht := e.pht.modify phtIndex (·.update taken) }

/-- `update_on_verification`: train, forget, then commit the history or roll it back. -/
def updateOnVerification (e : EDC) (fullyAccepted : Bool) (acceptedCount : Nat) : EDC :=
  let e := trainPending fullyAccepted acceptedCount 0
    (e.pendingPredictionIndices.zip e.pendingPredictionValues) e
  let e := { e with pendingPredictionIndices := [], pendingPredictionValues := [] }
  if fullyAccepted then { e with lceht := e.leht, lcehtPtr := e.lehtPtr, llr := 0 }
  else { e with leht := e.lceht, lehtPtr := e.lcehtPtr, llr := 0 }

/-- `reset`: a new inference sequence. The PHT and the statistics stay. -/
def reset (e : EDC) : EDC :=
  { e with
    leht := e.leht.map fun _ => 0
    lceht := e.lceht.map fun _ => 0
    llr := 0
    lehtPtr := 0
    lcehtPtr := 0
    pendingPredictionIndices := []
    pendingPredictionValues := [] }

/-! ## 2. The two histories and the predictions to train -/

/-- The recent history: LEHT with its write pointer. -/
def history (e : EDC) : Table Nat := ⟨e.leht, e.lehtPtr⟩

/-- The committed history: LCEHT with its pointer. -/
def committed (e : EDC) : Table Nat := ⟨e.lceht, e.lcehtPtr⟩

/-- The predictions not yet trained: table index and predicted value. -/
def pending (e : EDC) : List (Nat × Bool) :=
  e.pendingPredictionIndices.zip e.pendingPredictionValues

/-- The tables have the configured size and the two pending lists go in step. -/
structure Sized (e : EDC) : Prop where
  leht : e.leht.length = e.lehtSize
  lceht : e.lceht.length = e.lehtSize
  inStep : e.pendingPredictionIndices.length = e.pendingPredictionValues.length

theorem new_sized (hMax : ℚ) (lehtSize llrBits : Nat) : (new hMax lehtSize llrBits).Sized :=
  ⟨List.length_replicate, List.length_replicate, rfl⟩

/-- From `e` to `e'` by polls with the entropy `hint`, which made the predictions `preds`. -/
structure Polled (hint : ℚ) (e e' : EDC) (preds : List (Nat × Bool)) : Prop where
  pht : e'.pht = e.pht
  committed : e'.committed = e.committed
  hMax : e'.hMax = e.hMax
  pending : e.Sized → e'.pending = e.pending ++ preds
  history : e.Sized →
    e'.history = e.history.replay (List.replicate preds.length (e.entropyToBucket hint))
  sized : e.Sized → e'.Sized

theorem Polled.refl (hint : ℚ) (e : EDC) : Polled hint e e [] where
  pht := rfl
  committed := rfl
  hMax := rfl
  pending _ := (List.append_nil _).symm
  history _ := rfl
  sized h := h

/-- Rows of polls compose. -/
theorem Polled.trans {hint : ℚ} {e e' e'' : EDC} {ps qs : List (Nat × Bool)}
    (h : Polled hint e e' ps) (h' : Polled hint e' e'' qs) : Polled hint e e'' (ps ++ qs) where
  pht := h'.pht.trans h.pht
  committed := h'.committed.trans h.committed
  hMax := h'.hMax.trans h.hMax
  pending hs := by rw [h'.pending (h.sized hs), h.pending hs, List.append_assoc]
  history hs := by
    have hbucket : e'.entropyToBucket hint = e.entropyToBucket hint := by
      unfold entropyToBucket
      rw [h.hMax]
    rw [h'.history (h.sized hs), h.history hs, hbucket, List.length_append,
      List.replicate_add, Table.replay_append]
  sized hs := h'.sized (h.sized hs)

/-- **One poll**: one bucket written, one prediction remembered, nothing trained. -/
theorem poll_polled (e : EDC) (hint : ℚ) :
    Polled hint e (e.shouldContinueDrafting hint).2 [(e.recordBucket hint).predict] where
  pht := rfl
  committed := rfl
  hMax := rfl
  pending hs := List.zip_append hs.inStep
  history hs := by
    show Table.mk (e.leht.set e.lehtPtr (e.entropyToBucket hint)) ((e.lehtPtr + 1) % e.lehtSize)
      = e.history.push (e.entropyToBucket hint)
    rw [← hs.leht]
    rfl
  sized hs := by
    refine ⟨List.length_set.trans hs.leht, hs.lceht, ?_⟩
    simp [shouldContinueDrafting, recordBucket, hs.inStep]

/-! ## 3. Training -/

/-- Moves one counter of a table. -/
def trainCounter (pht : List CounterState) (p : Nat × Bool) : List CounterState :=
  pht.modify p.1 (·.update p.2)

/-- What a verification says about a row of predictions, the first of which is number `i`: the
    table index and whether it was right to go on. -/
def outcomesFrom (fullyAccepted : Bool) (acceptedCount : Nat) :
    Nat → List (Nat × Bool) → List (Nat × Bool)
  | _, [] => []
  | i, p :: ps =>
      (p.1, actualTaken fullyAccepted acceptedCount i) ::
        outcomesFrom fullyAccepted acceptedCount (i + 1) ps

/-- `outcomesFrom`, with the predictions numbered from 0. -/
def outcomes (fullyAccepted : Bool) (acceptedCount : Nat) (preds : List (Nat × Bool)) :
    List (Nat × Bool) :=
  outcomesFrom fullyAccepted acceptedCount 0 preds

/-- How many of the first `n` predictions were right to go on: all of them after full acceptance,
    else those whose next token is accepted too. -/
def useful (fullyAccepted : Bool) (acceptedCount n : Nat) : Nat :=
  if fullyAccepted then n else min n (acceptedCount - 1)

theorem actualTaken_eq (full : Bool) (accepted : Nat) {i n : Nat} (hi : i < n) :
    actualTaken full accepted i = decide (i < useful full accepted n) := by
  unfold actualTaken useful
  cases full with
  | true => simp [hi]
  | false =>
      rw [Bool.false_or, if_neg Bool.false_ne_true, decide_eq_decide]
      omega

theorem outcomesFrom_eq_iff (full full' : Bool) (accepted accepted' : Nat) :
    ∀ (i : Nat) (ps : List (Nat × Bool)),
      outcomesFrom full accepted i ps = outcomesFrom full' accepted' i ps ↔
        ∀ j < ps.length, actualTaken full accepted (i + j) = actualTaken full' accepted' (i + j)
  | _, [] => ⟨fun _ _ hj => absurd hj (Nat.not_lt_zero _), fun _ => rfl⟩
  | i, p :: ps => by
      have ih := outcomesFrom_eq_iff full full' accepted accepted' (i + 1) ps
      unfold outcomesFrom
      rw [List.cons.injEq, Prod.mk.injEq, ih]
      constructor
      · rintro ⟨⟨-, hfirst⟩, hrest⟩ j hj
        cases j with
        | zero => exact hfirst
        | succ j =>
            rw [← Nat.succ_add_eq_add_succ]
            exact hrest j (Nat.lt_of_succ_lt_succ hj)
      · intro hall
        refine ⟨⟨rfl, hall 0 (Nat.succ_pos _)⟩, fun j hj => ?_⟩
        rw [Nat.succ_add_eq_add_succ]
        exact hall (j + 1) (Nat.succ_lt_succ hj)

/-- **Two verifications train alike when they find equally many predictions useful.** -/
theorem outcomes_eq_iff (full full' : Bool) (accepted accepted' : Nat) (ps : List (Nat × Bool)) :
    outcomes full accepted ps = outcomes full' accepted' ps ↔
      useful full accepted ps.length = useful full' accepted' ps.length := by
  have hle : ∀ (full : Bool) (accepted : Nat), useful full accepted ps.length ≤ ps.length := by
    intro full accepted
    unfold useful
    split <;> omega
  unfold outcomes
  rw [outcomesFrom_eq_iff]
  constructor
  · intro hall
    have hbelow : ∀ j < ps.length,
        j < useful full accepted ps.length ↔ j < useful full' accepted' ps.length := by
      intro j hj
      have heq := hall j hj
      rw [Nat.zero_add, actualTaken_eq full accepted hj, actualTaken_eq full' accepted' hj] at heq
      exact decide_eq_decide.mp heq
    have h₁ := hle full accepted
    have h₂ := hle full' accepted'
    by_contra hne
    rcases Nat.lt_or_gt_of_ne hne with hlt | hlt
    · exact absurd ((hbelow _ (by omega)).mpr hlt) (Nat.lt_irrefl _)
    · exact absurd ((hbelow _ (by omega)).mp hlt) (Nat.lt_irrefl _)
  · intro heq j hj
    rw [Nat.zero_add, actualTaken_eq full accepted hj, actualTaken_eq full' accepted' hj, heq]

/-- **The training loop changes the counters and the hit count only.** -/
theorem trainPending_eq (full : Bool) (accepted : Nat) :
    ∀ (i : Nat) (ps : List (Nat × Bool)) (e : EDC),
      trainPending full accepted i ps e =
        { e with
          pht := (outcomesFrom full accepted i ps).foldl trainCounter e.pht
          correctPredictions := (trainPending full accepted i ps e).correctPredictions }
  | _, [], _ => rfl
  | i, (index, value) :: ps, e => by
      unfold trainPending
      rw [trainPending_eq full accepted (i + 1) ps]
      rfl

section Update

variable (e : EDC) (full : Bool) (accepted : Nat)

/-- The update trains exactly the pending predictions, in order. -/
theorem update_pht : (e.updateOnVerification full accepted).pht =
    (outcomes full accepted e.pending).foldl trainCounter e.pht := by
  unfold updateOnVerification
  rw [trainPending_eq]
  cases full <;> rfl

/-- ... and forgets them. -/
@[simp] theorem update_pending : (e.updateOnVerification full accepted).pending = [] := by
  unfold updateOnVerification
  cases full <;> rfl

/-- The recent history stays after full acceptance and goes back to the committed one otherwise. -/
theorem update_history : (e.updateOnVerification full accepted).history =
    if full then e.history else e.committed := by
  unfold updateOnVerification
  rw [trainPending_eq]
  cases full <;> rfl

/-- After an update the two histories agree. -/
theorem update_committed : (e.updateOnVerification full accepted).committed =
    (e.updateOnVerification full accepted).history := by
  unfold updateOnVerification
  rw [trainPending_eq]
  cases full <;> rfl

@[simp] theorem update_llr : (e.updateOnVerification full accepted).llr = 0 := by
  unfold updateOnVerification
  cases full <;> rfl

@[simp] theorem update_hMax : (e.updateOnVerification full accepted).hMax = e.hMax := by
  unfold updateOnVerification
  rw [trainPending_eq]
  cases full <;> rfl

theorem update_sized {e : EDC} (hs : e.Sized) : (e.updateOnVerification full accepted).Sized := by
  unfold updateOnVerification
  rw [trainPending_eq]
  cases full with
  | true => exact ⟨hs.leht, hs.leht, rfl⟩
  | false => exact ⟨hs.lceht, hs.lceht, rfl⟩

end Update

end EDC

end Ahasd
