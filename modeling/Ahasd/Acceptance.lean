/-
  File:      Ahasd/Acceptance.lean
  Subject:   THE SYNTHETIC ACCEPTANCE MODEL (SyntheticAcceptanceModel.cc).

  How many of the drafted tokens a verification accepts: the row of a replayed trace when there is
  one, else the parametric sampler. Two pieces of the C++ standard library are parameters of the
  model (`StdLib`): `std::exp`, and the stream of uniform draws of `std::mt19937_64` for a seed.
-/
import Ahasd.Config
import Mathlib.Tactic.Linarith

namespace Ahasd

open Std

/-- The standard library the sampler uses: `std::exp`, and for every seed the draws
    `uniform_real_distribution(0, 1)` takes from `mt19937_64`, in order. -/
structure StdLib where
  exp : ℚ → ℚ
  u01 : UInt64 → Nat → ℚ

/-- `AcceptanceMode`. -/
inductive AcceptanceMode where
  | parametric
  | traceReplay
  | traceThenParametric
  deriving DecidableEq, Repr

/-- `parse_mode`. -/
def parseMode (s : String) : AcceptanceMode :=
  if s = "trace_replay" then .traceReplay
  else if s = "trace_then_parametric" then .traceThenParametric
  else .parametric

/-- `AcceptanceCoeffs`. -/
structure AcceptanceCoeffs where
  base : ℚ := 85 / 100
  alpha : ℚ := 12 / 100
  lengthDecay : ℚ := 30 / 100
  pMin : ℚ := 5 / 100

/-- `TraceKey`. -/
structure TraceKey where
  requestId : Nat
  specRound : Nat
  deriving DecidableEq, Repr

/-- `TraceRow`. -/
structure TraceRow where
  draftLength : Nat
  avgEntropy : ℚ
  acceptedLength : Nat
  deriving DecidableEq, Repr

/-- The state of the model: fixed once the configuration is loaded. `traceRows` is the hash map of
    the replayed trace (the last row of a key wins). -/
structure SyntheticAcceptanceModel where
  lib : StdLib
  coeffs : AcceptanceCoeffs := {}
  mode : AcceptanceMode := .parametric
  seed : UInt64 := 0x5A5A5A5A5A5A5A5A
  traceRows : List (TraceKey × TraceRow) := []

namespace SyntheticAcceptanceModel

/-- `load_from_config`, with the rows read from `accept_trace_path` (newest first). -/
def loadFromConfig (lib : StdLib) (config : SimulationConfig) (rows : List (TraceKey × TraceRow)) :
    SyntheticAcceptanceModel where
  lib := lib
  coeffs := ⟨config.acceptBase, config.acceptEntropyAlpha, config.acceptLengthDecay,
    config.acceptPMin⟩
  mode := parseMode config.acceptMode
  seed := config.acceptRngSeed
  traceRows := rows

/-- `lookup_trace`. -/
def lookupTrace (m : SyntheticAcceptanceModel) (requestId specRound : Nat) : Option TraceRow :=
  m.traceRows.lookup ⟨requestId, specRound⟩

/-- The seed of a `(request, round)` pair. -/
def rngSeed (m : SyntheticAcceptanceModel) (requestId specRound : Nat) : UInt64 :=
  m.seed ^^^ (requestId.toUInt64 * 0x9E3779B97F4A7C15) ^^^
    (specRound.toUInt64 * 0xBF58476D1CE4E5B9)

/-- The acceptance probability of position `i` of a draft of `draftLength` tokens. -/
def acceptProbability (c : AcceptanceCoeffs) (base : ℚ) (draftLength i : Nat) : ℚ :=
  let denom : ℚ := max 1 ((draftLength - 1 : Nat) : ℚ)
  let frac := (i : ℚ) / denom
  let p := base * (1 - c.lengthDecay * frac)
  let p := if p < c.pMin then c.pMin else p
  if p > 1 then 1 else p

/-- The loop of `sample_parametric`: `left` positions from `i` on; the first rejection ends it. -/
def acceptLoop (c : AcceptanceCoeffs) (base : ℚ) (draftLength : Nat) (draw : Nat → ℚ) :
    Nat → Nat → Nat
  | 0, _ => 0
  | left + 1, i =>
      if draw i ≤ acceptProbability c base draftLength i then
        acceptLoop c base draftLength draw left (i + 1) + 1
      else 0

/-- `sample_parametric`. -/
def sampleParametric (m : SyntheticAcceptanceModel) (requestId specRound draftLength : Nat)
    (entropyHint : ℚ) : Nat :=
  if draftLength = 0 then 0
  else
    let draw := m.lib.u01 (m.rngSeed requestId specRound)
    let base := max m.coeffs.pMin
      (min 1 (m.coeffs.base * m.lib.exp (-m.coeffs.alpha * entropyHint)))
    acceptLoop m.coeffs base draftLength draw draftLength 0

/-- `sample`. -/
def sample (m : SyntheticAcceptanceModel) (requestId specRound draftLength : Nat)
    (entropyHint : ℚ) : Nat :=
  match m.mode with
  | .parametric => m.sampleParametric requestId specRound draftLength entropyHint
  | _ =>
      match m.lookupTrace requestId specRound with
      | some row => min row.acceptedLength draftLength
      | none => m.sampleParametric requestId specRound draftLength entropyHint

/-- The loop accepts at most the positions it visits. -/
theorem acceptLoop_le (c : AcceptanceCoeffs) (base : ℚ) (k : Nat) (draw : Nat → ℚ) (left i : Nat) :
    acceptLoop c base k draw left i ≤ left := by
  induction left generalizing i with
  | zero => exact Nat.le_refl 0
  | succ left ih =>
      unfold acceptLoop
      split
      · exact Nat.succ_le_succ (ih (i + 1))
      · exact Nat.zero_le _

/-- **A sample never exceeds the draft length.** -/
theorem sample_le (m : SyntheticAcceptanceModel) (requestId specRound draftLength : Nat)
    (entropyHint : ℚ) : m.sample requestId specRound draftLength entropyHint ≤ draftLength := by
  have hpar : m.sampleParametric requestId specRound draftLength entropyHint ≤ draftLength := by
    unfold sampleParametric
    split
    · exact Nat.zero_le _
    · exact acceptLoop_le _ _ _ _ _ _
  unfold sample
  split
  · exact hpar
  · split
    · exact Nat.min_le_right _ _
    · exact hpar

/-! ## Samples of one round for two lengths -/

/-- **The loop accepts `n` positions** exactly when there are as many and each of them passes. -/
theorem le_acceptLoop_iff (c : AcceptanceCoeffs) (base : ℚ) (k : Nat) (draw : Nat → ℚ) :
    ∀ (left i n : Nat), n ≤ acceptLoop c base k draw left i ↔
      n ≤ left ∧ ∀ j < n, draw (i + j) ≤ acceptProbability c base k (i + j)
  | 0, i, n => by
      refine ⟨fun h => ?_, fun h => h.1⟩
      obtain rfl := Nat.le_zero.mp h
      exact ⟨Nat.le_refl 0, fun j hj => absurd hj (Nat.not_lt_zero j)⟩
  | left + 1, i, 0 => iff_of_true (Nat.zero_le _)
      ⟨Nat.zero_le _, fun j hj => absurd hj (Nat.not_lt_zero j)⟩
  | left + 1, i, n + 1 => by
      have ih := le_acceptLoop_iff c base k draw left (i + 1) n
      unfold acceptLoop
      split
      · next hpass =>
          rw [Nat.add_le_add_iff_right, ih, Nat.add_le_add_iff_right]
          refine and_congr_right fun _ => ⟨fun h j hj => ?_, fun h j hj => ?_⟩
          · cases j with
            | zero => exact hpass
            | succ j =>
                rw [show i + (j + 1) = i + 1 + j by omega]
                exact h j (Nat.lt_of_succ_lt_succ hj)
          · rw [show i + 1 + j = i + (j + 1) by omega]
            exact h (j + 1) (Nat.succ_lt_succ hj)
      · next hfail =>
          exact iff_of_false (Nat.not_succ_le_zero n) fun h => hfail (h.2 0 (Nat.succ_pos n))

/-- The clamps of the probability respect the order. -/
theorem clamp_mono (pMin : ℚ) {x y : ℚ} (h : x ≤ y) :
    (if (if x < pMin then pMin else x) > 1 then 1 else (if x < pMin then pMin else x)) ≤
      (if (if y < pMin then pMin else y) > 1 then 1 else (if y < pMin then pMin else y)) := by
  split_ifs <;> linarith

/-- **A position is accepted more easily in a longer draft**: it lies nearer to the start. -/
theorem acceptProbability_mono (c : AcceptanceCoeffs) {base : ℚ} (hbase : 0 ≤ base)
    (hdecay : 0 ≤ c.lengthDecay) {p k : Nat} (hpk : p ≤ k) (i : Nat) :
    acceptProbability c base p i ≤ acceptProbability c base k i := by
  have hdenom : max (1 : ℚ) ((p - 1 : Nat) : ℚ) ≤ max 1 ((k - 1 : Nat) : ℚ) :=
    max_le_max le_rfl (by exact_mod_cast Nat.sub_le_sub_right hpk 1)
  have hpos : (0 : ℚ) < max 1 ((p - 1 : Nat) : ℚ) := lt_max_of_lt_left one_pos
  have hfrac : (i : ℚ) / max 1 ((k - 1 : Nat) : ℚ) ≤ i / max 1 ((p - 1 : Nat) : ℚ) :=
    div_le_div_of_nonneg_left (Nat.cast_nonneg i) hpos hdenom
  have hdecayed := mul_le_mul_of_nonneg_left hfrac hdecay
  exact clamp_mono c.pMin (mul_le_mul_of_nonneg_left (by linarith) hbase)

/-- Without decay, and at the first position, the length of the draft does not matter. -/
theorem acceptProbability_congr (c : AcceptanceCoeffs) (base : ℚ) (p k : Nat) {i : Nat}
    (h : c.lengthDecay = 0 ∨ i = 0) : acceptProbability c base p i = acceptProbability c base k i := by
  unfold acceptProbability
  rcases h with h | rfl
  · simp [h]
  · simp

/-- The row of a trace decides the sample. -/
def replays (m : SyntheticAcceptanceModel) (requestId specRound : Nat) : Bool :=
  m.mode != .parametric && (m.lookupTrace requestId specRound).isSome

/-- The base probability of a sample. -/
def baseProbability (m : SyntheticAcceptanceModel) (entropyHint : ℚ) : ℚ :=
  max m.coeffs.pMin (min 1 (m.coeffs.base * m.lib.exp (-m.coeffs.alpha * entropyHint)))

/-- Position `i` of a draft of `draftLength` tokens passes its draw. -/
def passes (m : SyntheticAcceptanceModel) (requestId specRound draftLength : Nat) (entropyHint : ℚ)
    (i : Nat) : Prop :=
  m.lib.u01 (m.rngSeed requestId specRound) i ≤
    acceptProbability m.coeffs (m.baseProbability entropyHint) draftLength i

section Prefix

variable (m : SyntheticAcceptanceModel) (requestId specRound : Nat) (entropyHint : ℚ)

/-- A replayed sample is the row's, clamped to the draft. -/
theorem sample_replayed (h : m.replays requestId specRound = true) : ∃ n, ∀ k,
    m.sample requestId specRound k entropyHint = min n k := by
  unfold replays at h
  rw [Bool.and_eq_true, bne_iff_ne] at h
  obtain ⟨hmode, hrow⟩ := h
  obtain ⟨row, hrow⟩ := Option.isSome_iff_exists.mp hrow
  refine ⟨row.acceptedLength, fun k => ?_⟩
  unfold sample
  cases hm : m.mode with
  | parametric => exact absurd hm hmode
  | traceReplay => simp only [hrow]
  | traceThenParametric => simp only [hrow]

/-- **What a drawn sample is**: as many positions as the draft has and as pass one after the
    other. -/
theorem le_sample_iff (h : m.replays requestId specRound = false) (k n : Nat) :
    n ≤ m.sample requestId specRound k entropyHint ↔
      n ≤ k ∧ ∀ j < n, m.passes requestId specRound k entropyHint j := by
  have hpar : n ≤ m.sampleParametric requestId specRound k entropyHint ↔
      n ≤ k ∧ ∀ j < n, m.passes requestId specRound k entropyHint j := by
    unfold sampleParametric
    split
    · next hzero =>
        subst hzero
        refine ⟨fun hn => ?_, fun hn => hn.1⟩
        obtain rfl := Nat.le_zero.mp hn
        exact ⟨Nat.le_refl 0, fun j hj => absurd hj (Nat.not_lt_zero j)⟩
    · have hloop := le_acceptLoop_iff m.coeffs (m.baseProbability entropyHint) k
        (m.lib.u01 (m.rngSeed requestId specRound)) k 0 n
      simp only [Nat.zero_add] at hloop
      exact hloop
  unfold replays at h
  unfold sample
  cases hm : m.mode with
  | parametric => exact hpar
  | traceReplay =>
      rw [hm] at h
      have hrow : m.lookupTrace requestId specRound = none := by simpa using h
      simp only [hrow]
      exact hpar
  | traceThenParametric =>
      rw [hm] at h
      have hrow : m.lookupTrace requestId specRound = none := by simpa using h
      simp only [hrow]
      exact hpar

/-- **The sample of a prefix**, for every mode and every stream of draws: it never accepts more than
    the sample of the whole draft leaves of the prefix. The two agree exactly when a row of the
    trace decides, or the prefix's own probabilities pass every draw that counts; they do without
    decay, and for a prefix of one token. -/
theorem sample_prefix (hdecay : 0 ≤ m.coeffs.lengthDecay) (hmin : 0 ≤ m.coeffs.pMin) {p k : Nat}
    (hpk : p < k) :
    m.sample requestId specRound p entropyHint ≤
        min p (m.sample requestId specRound k entropyHint) ∧
      (m.sample requestId specRound p entropyHint =
          min p (m.sample requestId specRound k entropyHint) ↔
        m.replays requestId specRound = true ∨
          ∀ i < min p (m.sample requestId specRound k entropyHint),
            m.passes requestId specRound p entropyHint i) ∧
      (m.coeffs.lengthDecay = 0 ∨ p ≤ 1 →
        m.sample requestId specRound p entropyHint =
          min p (m.sample requestId specRound k entropyHint)) := by
  cases hrow : m.replays requestId specRound with
  | true =>
      obtain ⟨n, hn⟩ := m.sample_replayed requestId specRound entropyHint hrow
      have heq : m.sample requestId specRound p entropyHint =
          min p (m.sample requestId specRound k entropyHint) := by
        rw [hn, hn]
        omega
      exact ⟨heq.le, iff_of_true heq (.inl rfl), fun _ => heq⟩
  | false =>
      have hp := m.le_sample_iff requestId specRound entropyHint hrow p
      have hk := m.le_sample_iff requestId specRound entropyHint hrow k
      have hbase : 0 ≤ m.baseProbability entropyHint := le_max_of_le_left hmin
      have hle : m.sample requestId specRound p entropyHint ≤
          min p (m.sample requestId specRound k entropyHint) := by
        obtain ⟨hlength, hpass⟩ := (hp _).mp (Nat.le_refl _)
        refine Nat.le_min.mpr ⟨hlength, (hk _).mpr ⟨hlength.trans hpk.le, fun j hj => ?_⟩⟩
        exact (hpass j hj).trans (acceptProbability_mono m.coeffs hbase hdecay hpk.le j)
      have heq : (∀ i < min p (m.sample requestId specRound k entropyHint),
          m.passes requestId specRound p entropyHint i) →
          m.sample requestId specRound p entropyHint =
            min p (m.sample requestId specRound k entropyHint) := fun hpass =>
        Nat.le_antisymm hle ((hp _).mpr ⟨Nat.min_le_left _ _, hpass⟩)
      refine ⟨hle, ⟨fun h => .inr ?_, fun h => heq ?_⟩, fun h => heq fun i hi => ?_⟩
      · rw [← h]
        exact ((hp _).mp (Nat.le_refl _)).2
      · rcases h with h | h
        · cases h
        · exact h
      · have hpass := ((hk _).mp (Nat.min_le_right p _)).2 i hi
        unfold passes at hpass ⊢
        rwa [acceptProbability_congr m.coeffs _ p k]
        exact h.imp_right fun hone => by omega

end Prefix

/-- Draws of 0.65: the second of two tokens needs 0.595, the second of three 0.7225. -/
def halfwayModel : SyntheticAcceptanceModel where
  lib := ⟨fun _ => 1, fun _ _ => 65 / 100⟩

/-- The prefix of two accepts one token, of which the whole draft accepts two. -/
theorem prefix_accepts_less :
    (0 ≤ halfwayModel.coeffs.pMin ∧ halfwayModel.coeffs.pMin ≤ 1 ∧
      0 ≤ halfwayModel.coeffs.lengthDecay) ∧
      halfwayModel.sample 0 1 2 0 = 1 ∧ halfwayModel.sample 0 1 3 0 = 2 ∧
      halfwayModel.sample 0 1 2 0 ≠ min 2 (halfwayModel.sample 0 1 3 0) := by
  decide +kernel

theorem sample_prefix_sample :
    halfwayModel.sample 0 1 2 0 ≤ min 2 (halfwayModel.sample 0 1 3 0) :=
  And.left <|
    sample_prefix halfwayModel 0 1 0 (by decide +kernel) (by decide +kernel) (by decide)

end SyntheticAcceptanceModel

end Ahasd
