/-
  File:      Ahasd/ETCCReplay.lean
  Subject:   THE ROUNDS OF THE ETCC TRACE REPLAY (scripts/run_etcc_trace_replay.py).

  A round drafts `k` tokens and commits the accepted ones. Each token is judged by its own draw
  against a probability that falls along the draft: the shorter the draft, the faster it falls. The
  full mode first judges a few tokens as a draft of their own, and cuts the round behind the first
  one that this rejects.

  * `ReplayConfig`, `acceptProbability`, `acceptedPrefix`, `simulateRound`: the replay, over any
    ordered field, with the exponential as a parameter;
  * `acceptProbability_mono`, `acceptProbability_anti`: how the length of the draft matters;
  * `acceptedPrefix_eq_iff`: what is accepted, draw by draw;
  * **`preverification_commits`**: exactly when a rejected prefix commits what the round would have.
-/
import Mathlib.Analysis.Complex.Exponential
import Mathlib.Tactic.Linarith

namespace Ahasd.ETCCReplay

/-! ## 1. The configuration and the draft length -/

/-- `ReplayConfig`: what the rounds read of it. -/
structure ReplayConfig (K : Type) [Field K] where
  maxDraftLength : ℤ := 6
  contextLength : ℤ := 4096
  baseAcceptance : K := 97 / 100
  entropyAlpha : K := 45 / 1000
  lengthDecay : K := 12 / 100
  pMin : K := 10 / 100
  edcEntropyMid : K := 4
  edcEntropyHigh : K := 5
  edcRecentWindow : ℤ := 8
  edcRecentLowAccept : K := 42 / 100
  maxLeadingBatches : ℤ := 4
  tvcEntropyThreshold : K := 445 / 100
  tvcPreverifyLen : ℤ := 2
  tvcMinDraftLen : ℤ := 3
  npuVerifyBaseCycles : K := 24 / 10
  npuVerifyTokenCycles : K := 34 / 100
  npuContextCyclesPer1k : K := 18 / 100
  pimDraftBaseCycles : K := 65 / 100
  pimDraftTokenCycles : K := 1
  pimPreverifyBaseCycles : K := 55 / 100
  pimPreverifyTokenCycles : K := 62 / 100

/-- The configuration as it stands in the source. -/
def ReplayConfig.asWritten (K : Type) [Field K] : ReplayConfig K := {}

/-- The modes of the replay. -/
inductive Mode where
  | withoutEtcc
  | edcPath
  | fullEtcc
  deriving DecidableEq, Repr

/-- `RoundRecord`, with the tokens that were pre-verified. -/
structure RoundRecord where
  draftLength : ℤ
  acceptedLength : Nat
  tvcInserted : Nat := 0
  tvcPrefixAccepted : Nat := 0
  preverifyTokens : ℤ := 0
  deriving DecidableEq, Repr

section Replay

variable {K : Type} [Field K] [LinearOrder K]

/-- `edc_draft_length`. -/
def edcDraftLength (cfg : ReplayConfig K) (entropy recentAcceptance : K) (leadingDepth : ℤ) : ℤ :=
  let k :=
    if cfg.edcEntropyHigh ≤ entropy then max 2 (cfg.maxDraftLength - 3)
    else if cfg.edcEntropyMid ≤ entropy then max 3 (cfg.maxDraftLength - 2)
    else cfg.maxDraftLength
  let k := if recentAcceptance < cfg.edcRecentLowAccept then k - 1 else k
  let k := if cfg.maxLeadingBatches - 1 ≤ leadingDepth then k - 1 else k
  max 1 (min cfg.maxDraftLength k)

/-- `npu_verify_cycles`. -/
def npuVerifyCycles (cfg : ReplayConfig K) (k : ℤ) : K :=
  cfg.npuVerifyBaseCycles + cfg.npuVerifyTokenCycles * k +
    cfg.npuContextCyclesPer1k * (cfg.contextLength / 1024)

/-- `pim_draft_cycles`. -/
def pimDraftCycles (cfg : ReplayConfig K) (k : ℤ) : K :=
  cfg.pimDraftBaseCycles + cfg.pimDraftTokenCycles * k

/-- `pim_preverify_cycles`. -/
def pimPreverifyCycles (cfg : ReplayConfig K) (k : ℤ) : K :=
  cfg.pimPreverifyBaseCycles + cfg.pimPreverifyTokenCycles * k

/-- `can_tvc_preverify`. -/
def canTvcPreverify (cfg : ReplayConfig K) (entropy : K) (k leadingDepth : ℤ) : Bool :=
  if k < cfg.tvcMinDraftLen ∨ entropy < cfg.tvcEntropyThreshold then false
  else
    let pvLen := min cfg.tvcPreverifyLen (k - 1)
    let npuSlack := npuVerifyCycles cfg k * (max 0 (leadingDepth - 1) : ℤ)
    let required := pimPreverifyCycles cfg pvLen + pimDraftCycles cfg 1
    decide (required ≤ npuSlack)

/-! ## 2. The accepted tokens -/

/-- The acceptance of the first token, by the entropy. -/
def firstAcceptance (exp : K → K) (cfg : ReplayConfig K) (entropy : K) : K :=
  max cfg.pMin (min 1 (cfg.baseAcceptance * exp (-cfg.entropyAlpha * entropy)))

/-- `accept_probability`. -/
def acceptProbability (exp : K → K) (cfg : ReplayConfig K) (entropy : K) (tokenIdx : Nat)
    (draftLength : ℤ) : K :=
  let p0 := firstAcceptance exp cfg entropy
  let denom : ℤ := max 1 (draftLength - 1)
  let frac : K := tokenIdx / denom
  max cfg.pMin (min 1 (p0 * (1 - cfg.lengthDecay * frac)))

/-- The loop of `accepted_prefix` from the token `i` on: it stops at the first that is rejected. -/
def acceptedFrom (accept : Nat → Bool) : Nat → Nat → Nat
  | 0, _ => 0
  | n + 1, i => if accept i then acceptedFrom accept n (i + 1) + 1 else 0

/-- `accepted_prefix`, with the draws of the round as a stream. -/
def acceptedPrefix (exp : K → K) (cfg : ReplayConfig K) (entropy : K) (draw : Nat → K)
    (draftLength : ℤ) : Nat :=
  acceptedFrom (fun i => decide (draw i ≤ acceptProbability exp cfg entropy i draftLength))
    (max 0 draftLength).toNat 0

/-- One round of `simulate_mode`. -/
def simulateRound (exp : K → K) (cfg : ReplayConfig K) (mode : Mode) (entropy recentAcceptance : K)
    (leadingDepth : ℤ) (draw : Nat → K) : RoundRecord :=
  let k :=
    match mode with
    | .withoutEtcc => cfg.maxDraftLength
    | _ => edcDraftLength cfg entropy recentAcceptance leadingDepth
  if mode = .fullEtcc ∧ canTvcPreverify cfg entropy k leadingDepth then
    let pvLen := min cfg.tvcPreverifyLen (k - 1)
    let tvcPrefixAccepted := acceptedPrefix exp cfg entropy draw pvLen
    -- a rejected prefix: the round keeps one boundary token
    let k := if tvcPrefixAccepted < pvLen then max 1 (min k (tvcPrefixAccepted + 1)) else k
    { draftLength := k
      acceptedLength := acceptedPrefix exp cfg entropy draw k
      tvcInserted := 1
      tvcPrefixAccepted := tvcPrefixAccepted
      preverifyTokens := pvLen }
  else
    { draftLength := k, acceptedLength := acceptedPrefix exp cfg entropy draw k }

end Replay

/-- What the loop accepts, token by token. -/
theorem acceptedFrom_eq_iff {accept : Nat → Bool} {j : Nat} : ∀ {n : Nat} (i : Nat), j < n →
    (acceptedFrom accept n i = j ↔ (∀ m < j, accept (i + m) = true) ∧ accept (i + j) = false) := by
  induction j with
  | zero =>
      intro n i hn
      obtain ⟨n, rfl⟩ := Nat.exists_eq_succ_of_ne_zero (Nat.ne_of_gt hn)
      unfold acceptedFrom
      cases accept i <;> simp
  | succ j ih =>
      intro n i hn
      obtain ⟨n, rfl⟩ := Nat.exists_eq_succ_of_ne_zero (Nat.ne_of_gt (Nat.zero_lt_of_lt hn))
      have ih := ih (i + 1) (Nat.lt_of_succ_lt_succ hn)
      have hshift : ∀ m, i + 1 + m = i + (m + 1) := fun m => by omega
      unfold acceptedFrom
      cases h : accept i with
      | false =>
          refine ⟨fun hnone => absurd hnone (by simp), fun hall => ?_⟩
          have hfirst := hall.1 0 (Nat.succ_pos j)
          rw [Nat.add_zero, h] at hfirst
          cases hfirst
      | true =>
          simp only [if_true, Nat.add_right_cancel_iff, ih, hshift]
          refine and_congr_left fun _ => ⟨fun hall m hm => ?_, fun hall m hm => ?_⟩
          · cases m with
            | zero => exact h
            | succ m => exact hall m (Nat.lt_of_succ_lt_succ hm)
          · exact hall (m + 1) (Nat.succ_lt_succ hm)

section Verdicts

variable {K : Type} [Field K] [LinearOrder K] (exp : K → K) (cfg : ReplayConfig K) (entropy : K)

/-- What is accepted of a draft, draw by draw. -/
theorem acceptedPrefix_eq_iff (draw : Nat → K) {draftLength : ℤ} {j : Nat}
    (hj : (j : ℤ) < draftLength) : acceptedPrefix exp cfg entropy draw draftLength = j ↔
      (∀ i < j, draw i ≤ acceptProbability exp cfg entropy i draftLength) ∧
        acceptProbability exp cfg entropy j draftLength < draw j := by
  unfold acceptedPrefix
  rw [acceptedFrom_eq_iff 0 (by omega)]
  simp

variable [IsStrictOrderedRing K]

/-- The longer the draft, the earlier in it a token stands. -/
theorem fraction_anti {n m : ℤ} (hnm : n ≤ m) (i : Nat) :
    (i : K) / (max 1 (m - 1) : ℤ) ≤ i / (max 1 (n - 1) : ℤ) := by
  have hpos : (0 : K) < (max 1 (n - 1) : ℤ) := by
    exact_mod_cast lt_of_lt_of_le one_pos (le_max_left _ _)
  refine div_le_div_of_nonneg_left (Nat.cast_nonneg i) hpos ?_
  exact_mod_cast max_le_max le_rfl (by omega)

variable {cfg entropy} (hdecay : 0 ≤ cfg.lengthDecay)

include hdecay

/-- **In a longer draft a token is accepted at least as likely.** -/
theorem acceptProbability_mono (hp : 0 ≤ firstAcceptance exp cfg entropy) {n m : ℤ} (hnm : n ≤ m)
    (i : Nat) : acceptProbability exp cfg entropy i n ≤ acceptProbability exp cfg entropy i m := by
  have hdecayed := mul_le_mul_of_nonneg_left (fraction_anti hnm i : (i : K) / _ ≤ _) hdecay
  have hscaled := mul_le_mul_of_nonneg_left (sub_le_sub_left hdecayed 1) hp
  exact max_le_max le_rfl (min_le_min le_rfl hscaled)

/-- With a negative first acceptance it is the other way round. -/
theorem acceptProbability_anti (hp : firstAcceptance exp cfg entropy ≤ 0) {n m : ℤ} (hnm : n ≤ m)
    (i : Nat) : acceptProbability exp cfg entropy i m ≤ acceptProbability exp cfg entropy i n := by
  have hdecayed := mul_le_mul_of_nonneg_left (fraction_anti hnm i : (i : K) / _ ≤ _) hdecay
  have hscaled := mul_le_mul_of_nonpos_left (sub_le_sub_left hdecayed 1) hp
  exact max_le_max le_rfl (min_le_min le_rfl hscaled)

/-! ## 3. A rejected prefix -/

omit hdecay in
/-- The first token is judged alike in every draft. -/
theorem acceptProbability_first (n m : ℤ) :
    acceptProbability exp cfg entropy 0 n = acceptProbability exp cfg entropy 0 m := by
  unfold acceptProbability
  simp

/-- The draws decide alike in the cut draft and in the full one: those before the rejected token are
    accepted where that is harder, and its own is rejected where acceptance is easier. -/
def SameVerdict (exp : K → K) (cfg : ReplayConfig K) (entropy : K) (draw : Nat → K) (k : ℤ)
    (j : Nat) : Prop :=
  if 0 ≤ firstAcceptance exp cfg entropy then
    (∀ i < j, draw i ≤ acceptProbability exp cfg entropy i (j + 1)) ∧
      acceptProbability exp cfg entropy j k < draw j
  else
    (∀ i < j, draw i ≤ acceptProbability exp cfg entropy i k) ∧
      acceptProbability exp cfg entropy j (j + 1) < draw j

/-- **Exactly when a rejected prefix decides the whole draft**: of a prefix that accepts only `j` of
    its tokens, the full draft and the one cut behind the next token accept `j`, too. -/
theorem sameVerdict_iff {draw : Nat → K} {pvLen k : ℤ} {j : Nat}
    (hjudged : acceptedPrefix exp cfg entropy draw pvLen = j) (hj : (j : ℤ) < pvLen)
    (hpv : pvLen ≤ k) :
    (acceptedPrefix exp cfg entropy draw k = j ∧
        acceptedPrefix exp cfg entropy draw (j + 1) = j) ↔
      SameVerdict exp cfg entropy draw k j := by
  rw [acceptedPrefix_eq_iff exp cfg entropy draw hj] at hjudged
  rw [acceptedPrefix_eq_iff exp cfg entropy draw (hj.trans_le hpv),
    acceptedPrefix_eq_iff exp cfg entropy draw (lt_add_one (j : ℤ))]
  have hcut : (j : ℤ) + 1 ≤ pvLen := by omega
  unfold SameVerdict
  split
  · next hp =>
      -- what a short draft accepts a long one accepts
      have hlonger : ∀ {n m : ℤ}, n ≤ m → ∀ i, acceptProbability exp cfg entropy i n ≤
        acceptProbability exp cfg entropy i m := fun h i => acceptProbability_mono exp hdecay hp h i
      constructor
      · exact fun h => ⟨h.2.1, h.1.2⟩
      · intro h
        exact ⟨⟨fun i hi => (hjudged.1 i hi).trans (hlonger hpv i), h.2⟩, h.1,
          (hlonger hcut j).trans_lt hjudged.2⟩
  · next hp =>
      have hshorter : ∀ {n m : ℤ}, n ≤ m → ∀ i, acceptProbability exp cfg entropy i m ≤
        acceptProbability exp cfg entropy i n :=
          fun h i => acceptProbability_anti exp hdecay (le_of_not_ge hp) h i
      constructor
      · exact fun h => ⟨h.1.1, h.2.2⟩
      · intro h
        exact ⟨⟨h.1, (hshorter hpv j).trans_lt hjudged.2⟩,
          fun i hi => (hjudged.1 i hi).trans (hshorter hcut i), h.2⟩

end Verdicts

section Rounds

variable {K : Type} [Field K] [LinearOrder K] (exp : K → K) (cfg : ReplayConfig K)
  (entropy recentAcceptance : K) (leadingDepth : ℤ) (draw : Nat → K)

/-- The round without the pre-verification. -/
theorem simulateRound_edcPath :
    simulateRound exp cfg .edcPath entropy recentAcceptance leadingDepth draw =
      { draftLength := edcDraftLength cfg entropy recentAcceptance leadingDepth
        acceptedLength := acceptedPrefix exp cfg entropy draw
          (edcDraftLength cfg entropy recentAcceptance leadingDepth) } := by
  unfold simulateRound
  rw [if_neg (by simp)]

/-- What the pre-verification makes of a round: it is as without, or a prefix of `pvLen` tokens was
    judged and the rest of the draft stays or is cut behind the rejected token. -/
theorem simulateRound_fullEtcc {full : RoundRecord} {k : ℤ}
    (hk : k = edcDraftLength cfg entropy recentAcceptance leadingDepth)
    (hfull : full = simulateRound exp cfg .fullEtcc entropy recentAcceptance leadingDepth draw) :
    full.acceptedLength = acceptedPrefix exp cfg entropy draw full.draftLength ∧
      ((full.draftLength = k ∧ full.preverifyTokens ≤ full.tvcPrefixAccepted) ∨
        (full.draftLength = full.tvcPrefixAccepted + 1 ∧ full.preverifyTokens < k ∧
          (full.tvcPrefixAccepted : ℤ) < full.preverifyTokens ∧
          acceptedPrefix exp cfg entropy draw full.preverifyTokens = full.tvcPrefixAccepted)) := by
  subst hk hfull
  unfold simulateRound
  dsimp only
  by_cases hpreverify : canTvcPreverify cfg entropy
      (edcDraftLength cfg entropy recentAcceptance leadingDepth) leadingDepth = true
  · rw [if_pos ⟨rfl, hpreverify⟩]
    refine ⟨rfl, ?_⟩
    dsimp only
    split
    · next hreject => exact .inr ⟨by omega, by omega, hreject, rfl⟩
    · next haccept => exact .inl ⟨rfl, not_lt.mp haccept⟩
  · rw [if_neg fun h => hpreverify h.2]
    exact ⟨rfl, .inl ⟨rfl, le_rfl⟩⟩

/-- **What the pre-verification does to a round**, for every configuration whose acceptance does not
    grow along the draft, every entropy and every stream of draws. A prefix that was rejected
    commits the same tokens as the whole draft if and only if the draws decide alike in both; in
    every other round the two modes commit the same draft. -/
theorem preverification_commits [IsStrictOrderedRing K] (hdecay : 0 ≤ cfg.lengthDecay)
    {edc full : RoundRecord}
    (hedc : edc = simulateRound exp cfg .edcPath entropy recentAcceptance leadingDepth draw)
    (hfull : full = simulateRound exp cfg .fullEtcc entropy recentAcceptance leadingDepth draw) :
    ((full.tvcPrefixAccepted : ℤ) < full.preverifyTokens →
        ((edc.acceptedLength = full.tvcPrefixAccepted ∧
            full.acceptedLength = full.tvcPrefixAccepted) ↔
          SameVerdict exp cfg entropy draw edc.draftLength full.tvcPrefixAccepted)) ∧
      (full.preverifyTokens ≤ full.tvcPrefixAccepted →
        full.draftLength = edc.draftLength ∧ full.acceptedLength = edc.acceptedLength) := by
  rw [simulateRound_edcPath] at hedc
  obtain ⟨haccepted, hcases⟩ := simulateRound_fullEtcc exp cfg entropy recentAcceptance leadingDepth
    draw (k := edc.draftLength) (by rw [hedc]) hfull
  have hwhole : edc.acceptedLength = acceptedPrefix exp cfg entropy draw edc.draftLength := by
    rw [hedc]
  rw [haccepted, hwhole]
  rcases hcases with ⟨hsame, hkept⟩ | ⟨hcut, hpv, hreject, hjudged⟩
  · exact ⟨fun h => absurd h (not_lt.mpr hkept), fun _ => ⟨hsame, by rw [hsame]⟩⟩
  · refine ⟨fun _ => ?_, fun h => absurd hreject (not_lt.mpr h)⟩
    rw [hcut]
    exact sameVerdict_iff exp hdecay hjudged hreject hpv.le

end Rounds

/-! ## 4. A round -/

/-- A round of four tokens at the entropy 4.5, with two of them pre-verified; the entropy does not
    lower the acceptance. -/
noncomputable def sampleRound (mode : Mode) (draw : Nat → ℝ) : RoundRecord :=
  simulateRound Real.exp { entropyAlpha := 0 } mode (9 / 2) 1 2 draw

theorem sample_first : firstAcceptance Real.exp ({ entropyAlpha := 0 } : ReplayConfig ℝ) (9 / 2) =
    97 / 100 := by
  unfold firstAcceptance
  norm_num

theorem sample_draftLength :
    edcDraftLength ({ entropyAlpha := 0 } : ReplayConfig ℝ) (9 / 2) 1 2 = 4 := by
  unfold edcDraftLength
  norm_num

theorem sample_preverifies :
    canTvcPreverify ({ entropyAlpha := 0 } : ReplayConfig ℝ) (9 / 2) 4 2 = true := by
  unfold canTvcPreverify npuVerifyCycles pimPreverifyCycles pimDraftCycles
  norm_num

/-- The draws of a round. -/
noncomputable def sampleDraws (second : ℝ) : Nat → ℝ
  | 0 => 3 / 5
  | 1 => second
  | _ => 1

theorem sample_probabilities :
    acceptProbability Real.exp ({ entropyAlpha := 0 } : ReplayConfig ℝ) (9 / 2) 0 2 = 97 / 100 ∧
      acceptProbability Real.exp ({ entropyAlpha := 0 } : ReplayConfig ℝ) (9 / 2) 1 2 =
        8536 / 10000 ∧
      acceptProbability Real.exp ({ entropyAlpha := 0 } : ReplayConfig ℝ) (9 / 2) 1 4 =
        9312 / 10000 := by
  unfold acceptProbability
  rw [sample_first]
  norm_num

/-- A second draw that the two tokens reject cuts the round behind it. -/
theorem sampleRound_rejected {second : ℝ} (h : 8536 / 10000 < second) :
    sampleRound .fullEtcc (sampleDraws second) =
      { draftLength := 2, acceptedLength := 1, tvcInserted := 1, tvcPrefixAccepted := 1,
        preverifyTokens := 2 } := by
  obtain ⟨hfirst, hsecond, _⟩ := sample_probabilities
  have hjudged : acceptedPrefix Real.exp { entropyAlpha := 0 } (9 / 2) (sampleDraws second) 2 = 1 := by
    rw [acceptedPrefix_eq_iff _ _ _ _ (by decide)]
    refine ⟨fun i hi => ?_, hsecond ▸ h⟩
    rw [Nat.lt_one_iff.mp hi, hfirst]
    norm_num [sampleDraws]
  unfold sampleRound simulateRound
  dsimp only
  rw [sample_draftLength, if_pos ⟨rfl, sample_preverifies⟩]
  simp [hjudged]

/-- Of draws that reject the second token in the full draft, too, the cut round commits the same. -/
theorem preverification_commits_sample :
    (sampleRound .edcPath (sampleDraws (50 / 51))).acceptedLength = 1 ∧
      (sampleRound .fullEtcc (sampleDraws (50 / 51))).acceptedLength = 1 := by
  have hfull := sampleRound_rejected
    (show (8536 / 10000 : ℝ) < 50 / 51 by norm_num)
  have hedc := simulateRound_edcPath Real.exp { entropyAlpha := 0 } (9 / 2) 1 2
    (sampleDraws (50 / 51))
  obtain ⟨hfirst, _, hfourth⟩ := sample_probabilities
  have hcommits := (preverification_commits Real.exp { entropyAlpha := 0 } (9 / 2) 1 2
    (sampleDraws (50 / 51)) (by norm_num) rfl rfl).1
  rw [show simulateRound Real.exp { entropyAlpha := 0 } .fullEtcc (9 / 2) 1 2
    (sampleDraws (50 / 51)) = _ from hfull] at hcommits
  rw [hfull]
  refine (hcommits (by decide)).mpr ?_
  rw [hedc, sample_draftLength]
  unfold SameVerdict
  rw [if_pos (by rw [sample_first]; norm_num)]
  refine ⟨fun i hi => ?_, ?_⟩
  · rw [Nat.lt_one_iff.mp hi, acceptProbability_first _ _ 2, hfirst]
    norm_num [sampleDraws]
  · rw [hfourth]
    norm_num [sampleDraws]

/-- **A pre-verification that takes a token**: the second draw is rejected in a draft of two and
    accepted in the round's draft of four. -/
theorem preverification_takes_a_token :
    (sampleRound .fullEtcc (sampleDraws (15 / 17))).tvcPrefixAccepted = 1 ∧
      (sampleRound .fullEtcc (sampleDraws (15 / 17))).preverifyTokens = 2 ∧
      (sampleRound .fullEtcc (sampleDraws (15 / 17))).acceptedLength = 1 ∧
      (sampleRound .edcPath (sampleDraws (15 / 17))).acceptedLength ≠ 1 := by
  obtain ⟨_, _, hfourth⟩ := sample_probabilities
  rw [sampleRound_rejected (by norm_num)]
  refine ⟨rfl, rfl, rfl, ?_⟩
  unfold sampleRound
  rw [simulateRound_edcPath, sample_draftLength]
  intro h
  have hreject := ((acceptedPrefix_eq_iff _ _ _ _ (by decide)).mp h).2
  rw [hfourth] at hreject
  norm_num [sampleDraws] at hreject

end Ahasd.ETCCReplay
