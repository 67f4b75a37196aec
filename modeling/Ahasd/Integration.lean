/-
  File:      Ahasd/Integration.lean
  Subject:   THE AHASD COORDINATOR (AHASDIntegration.h): EDC and TVC behind the calls the
             speculative scheduler makes, and the token counters of a run.

  * `decideDraftLength`: polls EDC until it says stop or the cap is reached (`pollLoop`);
  * `decidePreVerify`: TVC's proposal after the coordinator's own clamps;
  * `recordVerifyResult`, `recordDraftBatch`, `recordPreVerify`, `recordDraftTokensGenerated`: the
    completion hooks;
  * per operation, what it does to the predictor (`*_edc`), to the token counters (`*_tokens`) and
    to the configuration (`*_config`).
-/
import Ahasd.EDC
import Ahasd.TVC

namespace Ahasd

/-- `AHASDConfig`. -/
structure AHASDConfig where
  enableEdc : Bool := true
  enableTvc : Bool := true
  enableAau : Bool := true
  pimFreqMhz : ℚ := 800
  npuFreqMhz : ℚ := 1000
  maxDraftLength : Nat := 16
  minPreverifyLength : Nat := 2
  preVerifyMax : Nat := 8
  edcHMax : ℚ := 10
  edcLehtSize : Nat := 8
  edcLlrBits : Nat := 3
  tvcCycleTableSize : Nat := 4

/-- The coordinator: its two controls (absent when disabled) and its counters. -/
structure AHASDIntegration where
  config : AHASDConfig
  edc : Option EDC
  tvc : Option TVC
  totalDraftRounds : Nat := 0
  totalVerifies : Nat := 0
  totalPreVerifies : Nat := 0
  totalAcceptedTokens : Nat := 0
  totalVerifiedDraftTokens : Nat := 0
  totalRejectedDraftTokens : Nat := 0
  totalPimDraftTokens : Nat := 0
  totalPreverifyTokens : Nat := 0

namespace AHASDIntegration

/-- The constructor. -/
def new (cfg : AHASDConfig) : AHASDIntegration where
  config := cfg
  edc := if cfg.enableEdc then some (EDC.new cfg.edcHMax cfg.edcLehtSize cfg.edcLlrBits) else none
  tvc := if cfg.enableTvc then some (TVC.new cfg.pimFreqMhz cfg.npuFreqMhz cfg.tvcCycleTableSize)
    else none

/-- The `while (k < bounded)` loop of `decide_draft_length`; `left` is `bounded - k`. -/
def pollLoop (entropyHint : ℚ) : Nat → Nat → EDC → Nat × EDC
  | 0, k, e => (k, e)
  | left + 1, k, e =>
      match e.shouldContinueDrafting entropyHint with
      | (false, e) => (k, e)
      | (true, e) => pollLoop entropyHint left (k + 1) e

/-- `decide_draft_length`. -/
def decideDraftLength (a : AHASDIntegration) (maxK : Nat) (entropyHint : ℚ) :
    Nat × AHASDIntegration :=
  let a := { a with totalDraftRounds := a.totalDraftRounds + 1 }
  let bounded := max 1 maxK
  match a.config.enableEdc, a.edc with
  | true, some e =>
      let (k, e) := pollLoop entropyHint (bounded - 1) 1 e
      (k, { a with edc := some e })
  | _, _ => (bounded, a)

/-- The clamps of `decide_pre_verify`: the maximum, the pending drafts, and a strict prefix. -/
def boundPreVerify (length preVerifyMax pendingDraftCount : Nat) : Nat :=
  let bounded := min (min length preVerifyMax) pendingDraftCount
  if bounded ≥ pendingDraftCount ∧ pendingDraftCount > 1 then pendingDraftCount - 1 else bounded

/-- `decide_pre_verify`: 0 when no pre-verification is inserted. -/
def decidePreVerify (a : AHASDIntegration) (currentKvLength pendingDraftCount : Nat) :
    Nat × AHASDIntegration :=
  match a.config.enableTvc, a.tvc with
  | true, some t =>
      if pendingDraftCount < a.config.minPreverifyLength then (0, a)
      else
        let (decision, t) := t.shouldInsertPreverification currentKvLength pendingDraftCount
        let a := { a with tvc := some t }
        if !decision.1 then (0, a)
        else
          let bounded := boundPreVerify decision.2 a.config.preVerifyMax pendingDraftCount
          if bounded = 0 then (0, a)
          else
            (bounded,
              { a with
                totalPreVerifies := a.totalPreVerifies + 1
                tvc := some t.recordPreventedIdle })
  | _, _ => (0, a)

/-- `edc_->update_on_verification`, guarded as at its call. -/
def updateEdc (a : AHASDIntegration) (fullyAccepted : Bool) (acceptedLength : Nat) :
    AHASDIntegration :=
  match a.config.enableEdc, a.edc with
  | true, some e => { a with edc := some (e.updateOnVerification fullyAccepted acceptedLength) }
  | _, _ => a

/-- A call into `tvc_`, guarded as at every call. -/
def updateTvc (a : AHASDIntegration) (f : TVC → TVC) : AHASDIntegration :=
  match a.config.enableTvc, a.tvc with
  | true, some t => { a with tvc := some (f t) }
  | _, _ => a

/-- The counters of a final verification in `record_verify_result`. -/
def countFinalVerify (a : AHASDIntegration) (draftLength acceptedLength : Nat) :
    AHASDIntegration :=
  { a with
    totalVerifies := a.totalVerifies + 1
    totalVerifiedDraftTokens := a.totalVerifiedDraftTokens + draftLength
    totalAcceptedTokens := a.totalAcceptedTokens + acceptedLength
    totalRejectedDraftTokens :=
      if draftLength > acceptedLength then
        a.totalRejectedDraftTokens + (draftLength - acceptedLength)
      else a.totalRejectedDraftTokens }

/-- `record_verify_result`. -/
def recordVerifyResult (a : AHASDIntegration) (fullyAccepted : Bool)
    (draftLength acceptedLength verifyNpuCycles kvLength : Nat) (countAsFinalVerify : Bool) :
    AHASDIntegration :=
  let a := if countAsFinalVerify then a.countFinalVerify draftLength acceptedLength else a
  (a.updateEdc fullyAccepted acceptedLength).updateTvc
    (·.recordNpuVerification verifyNpuCycles kvLength)

/-- `record_draft_batch`. -/
def recordDraftBatch (a : AHASDIntegration) (pimDraftCycles draftLength : Nat) :
    AHASDIntegration :=
  a.updateTvc (·.recordPimDrafting pimDraftCycles draftLength)

/-- `record_draft_tokens_generated`. -/
def recordDraftTokensGenerated (a : AHASDIntegration) (draftTokens : Nat) : AHASDIntegration :=
  { a with totalPimDraftTokens := a.totalPimDraftTokens + draftTokens }

/-- `record_pre_verify`. -/
def recordPreVerify (a : AHASDIntegration) (pimPreVerifyCycles preVerifyLength : Nat) :
    AHASDIntegration :=
  { a with totalPreverifyTokens := a.totalPreverifyTokens + preVerifyLength }.updateTvc
    (·.recordPimPreverification pimPreVerifyCycles preVerifyLength)

/-- `start_npu_task`. -/
def startNpuTask (a : AHASDIntegration) (npuCycle : Nat) : AHASDIntegration :=
  a.updateTvc (·.startNpuTask npuCycle)

/-- `cycle_npu_with_progress`: the beacon of the simulator's core clock. -/
def cycleNpuWithProgress (a : AHASDIntegration) (npuCycle : Nat) : AHASDIntegration :=
  a.updateTvc (·.updateNpuProgress npuCycle)

/-! ## 2. What the operations do -/

/-- The four token counters of a run. -/
structure TokenCounters where
  pimDraft : Nat
  verified : Nat
  accepted : Nat
  rejected : Nat
  deriving DecidableEq, Repr

/-- The token counters. -/
def tokens (a : AHASDIntegration) : TokenCounters :=
  ⟨a.totalPimDraftTokens, a.totalVerifiedDraftTokens, a.totalAcceptedTokens,
    a.totalRejectedDraftTokens⟩

/-- The predictor, when the configuration lets the calls reach it. -/
def predictor (a : AHASDIntegration) : Option EDC :=
  if a.config.enableEdc then a.edc else none

theorem new_predictor (cfg : AHASDConfig) : (new cfg).predictor =
    if cfg.enableEdc then some (.new cfg.edcHMax cfg.edcLehtSize cfg.edcLlrBits) else none := by
  unfold predictor new
  cases cfg.enableEdc <;> rfl

section Tvc

variable (a : AHASDIntegration) (f : TVC → TVC)

@[simp] theorem updateTvc_config : (a.updateTvc f).config = a.config := by
  unfold updateTvc
  split <;> rfl

@[simp] theorem updateTvc_tokens : (a.updateTvc f).tokens = a.tokens := by
  unfold updateTvc
  split <;> rfl

@[simp] theorem updateTvc_predictor : (a.updateTvc f).predictor = a.predictor := by
  unfold updateTvc
  split <;> rfl

end Tvc

section PreVerify

variable (a : AHASDIntegration) (kvLength pendingDraftCount : Nat)

/-- TVC's decision leaves everything outside its own state alone. -/
theorem decidePreVerify_frame :
    (a.decidePreVerify kvLength pendingDraftCount).2.config = a.config ∧
      (a.decidePreVerify kvLength pendingDraftCount).2.tokens = a.tokens ∧
      (a.decidePreVerify kvLength pendingDraftCount).2.predictor = a.predictor := by
  unfold decidePreVerify
  split
  · split
    · exact ⟨rfl, rfl, rfl⟩
    · dsimp only
      split
      · exact ⟨rfl, rfl, rfl⟩
      · split <;> exact ⟨rfl, rfl, rfl⟩
  · exact ⟨rfl, rfl, rfl⟩

@[simp] theorem decidePreVerify_config :
    (a.decidePreVerify kvLength pendingDraftCount).2.config = a.config :=
  (a.decidePreVerify_frame kvLength pendingDraftCount).1

@[simp] theorem decidePreVerify_tokens :
    (a.decidePreVerify kvLength pendingDraftCount).2.tokens = a.tokens :=
  (a.decidePreVerify_frame kvLength pendingDraftCount).2.1

@[simp] theorem decidePreVerify_predictor :
    (a.decidePreVerify kvLength pendingDraftCount).2.predictor = a.predictor :=
  (a.decidePreVerify_frame kvLength pendingDraftCount).2.2

end PreVerify

section Draft

/-- The planning loop asks at least for `k` and at most for `left` more, and only polls. -/
theorem pollLoop_spec (hint : ℚ) (left k : Nat) (e : EDC) :
    k ≤ (pollLoop hint left k e).1 ∧ (pollLoop hint left k e).1 ≤ k + left ∧
      ∃ preds, EDC.Polled hint e (pollLoop hint left k e).2 preds := by
  induction left generalizing k e with
  | zero => exact ⟨Nat.le_refl k, Nat.le_refl k, [], .refl hint e⟩
  | succ left ih =>
      have hpoll := e.poll_polled hint
      unfold pollLoop
      cases hp : e.shouldContinueDrafting hint with
      | mk go e' =>
          rw [hp] at hpoll
          cases go with
          | false => exact ⟨Nat.le_refl k, Nat.le_add_right k _, _, hpoll⟩
          | true =>
              obtain ⟨hlow, hhigh, preds, hrest⟩ := ih (k + 1) e'
              exact ⟨Nat.le_of_succ_le hlow, hhigh.trans (by omega), _, hpoll.trans hrest⟩

variable (a : AHASDIntegration) (maxK : Nat) (hint : ℚ)

/-- **The planned length is between 1 and the cap.** -/
theorem decideDraftLength_bounds :
    1 ≤ (a.decideDraftLength maxK hint).1 ∧ (a.decideDraftLength maxK hint).1 ≤ max 1 maxK := by
  unfold decideDraftLength
  dsimp only
  split
  · obtain ⟨hlow, hhigh, _⟩ := pollLoop_spec hint (max 1 maxK - 1) 1 ‹_›
    exact ⟨hlow, by omega⟩
  · exact ⟨Nat.le_max_left 1 maxK, Nat.le_refl _⟩

@[simp] theorem decideDraftLength_config :
    (a.decideDraftLength maxK hint).2.config = a.config := by
  unfold decideDraftLength
  dsimp only
  split <;> rfl

@[simp] theorem decideDraftLength_tokens :
    (a.decideDraftLength maxK hint).2.tokens = a.tokens := by
  unfold decideDraftLength
  dsimp only
  split <;> rfl

/-- Planning a round polls the predictor with the round's hint. -/
theorem decideDraftLength_predictor {a : AHASDIntegration} {e : EDC} (he : a.predictor = some e) :
    ∃ e' preds, (a.decideDraftLength maxK hint).2.predictor = some e' ∧
      EDC.Polled hint e e' preds := by
  unfold predictor at he
  split at he
  · next hon =>
      obtain ⟨_, _, preds, hpolled⟩ := pollLoop_spec hint (max 1 maxK - 1) 1 e
      refine ⟨_, preds, ?_, hpolled⟩
      simp [decideDraftLength, predictor, hon, he]
  · cases he

theorem decideDraftLength_predictor_none {a : AHASDIntegration} (he : a.predictor = none) :
    (a.decideDraftLength maxK hint).2.predictor = none := by
  unfold predictor at he ⊢
  rw [decideDraftLength_config]
  split at he
  · next hon => simp [decideDraftLength, hon, he]
  · next hoff => rw [if_neg hoff]

end Draft

section Results

variable (a : AHASDIntegration) (full : Bool) (draftLength accepted cycles kvLength : Nat)

@[simp] theorem recordVerifyResult_config (final : Bool) :
    (a.recordVerifyResult full draftLength accepted cycles kvLength final).config = a.config := by
  unfold recordVerifyResult updateEdc
  cases final <;> dsimp only <;> rw [updateTvc_config] <;> split <;> rfl

/-- **Every verification result trains the predictor, pre-verification or not.** -/
@[simp] theorem recordVerifyResult_predictor (final : Bool) :
    (a.recordVerifyResult full draftLength accepted cycles kvLength final).predictor =
      a.predictor.map (·.updateOnVerification full accepted) := by
  have hstep : ∀ b : AHASDIntegration, (b.updateEdc full accepted).predictor =
      b.predictor.map (·.updateOnVerification full accepted) := by
    intro b
    unfold updateEdc predictor
    cases hon : b.config.enableEdc <;> cases hedc : b.edc <;> simp [hon, hedc]
  unfold recordVerifyResult
  dsimp only
  rw [updateTvc_predictor, hstep]
  cases final <;> rfl

/-- The training call does not count tokens. -/
theorem updateEdc_tokens : (a.updateEdc full accepted).tokens = a.tokens := by
  unfold updateEdc
  split <;> rfl

/-- A pre-verification result counts nothing. -/
@[simp] theorem recordVerifyResult_tokens_pre :
    (a.recordVerifyResult full draftLength accepted cycles kvLength false).tokens = a.tokens := by
  unfold recordVerifyResult
  dsimp only
  rw [updateTvc_tokens, updateEdc_tokens]
  rfl

/-- **A final result counts its draft once, split into accepted and rejected.** -/
theorem recordVerifyResult_tokens_final (h : accepted ≤ draftLength) :
    (a.recordVerifyResult full draftLength accepted cycles kvLength true).tokens =
      { a.tokens with
        verified := a.tokens.verified + draftLength
        accepted := a.tokens.accepted + accepted
        rejected := a.tokens.rejected + (draftLength - accepted) } := by
  unfold recordVerifyResult
  dsimp only
  rw [updateTvc_tokens, updateEdc_tokens]
  simp only [if_true, countFinalVerify, tokens]
  split
  · rfl
  · rw [Nat.sub_eq_zero_of_le (by omega), Nat.add_zero]

@[simp] theorem recordDraftBatch_config : (a.recordDraftBatch cycles draftLength).config = a.config :=
  updateTvc_config _ _

@[simp] theorem recordDraftBatch_tokens : (a.recordDraftBatch cycles draftLength).tokens = a.tokens :=
  updateTvc_tokens _ _

@[simp] theorem recordDraftBatch_predictor :
    (a.recordDraftBatch cycles draftLength).predictor = a.predictor :=
  updateTvc_predictor _ _

@[simp] theorem recordPreVerify_config : (a.recordPreVerify cycles draftLength).config = a.config :=
  updateTvc_config _ _

@[simp] theorem recordPreVerify_tokens : (a.recordPreVerify cycles draftLength).tokens = a.tokens :=
  updateTvc_tokens _ _

@[simp] theorem recordPreVerify_predictor :
    (a.recordPreVerify cycles draftLength).predictor = a.predictor :=
  updateTvc_predictor _ _

@[simp] theorem startNpuTask_config (cycle : Nat) : (a.startNpuTask cycle).config = a.config :=
  updateTvc_config _ _

@[simp] theorem startNpuTask_tokens (cycle : Nat) : (a.startNpuTask cycle).tokens = a.tokens :=
  updateTvc_tokens _ _

@[simp] theorem startNpuTask_predictor (cycle : Nat) :
    (a.startNpuTask cycle).predictor = a.predictor :=
  updateTvc_predictor _ _

@[simp] theorem cycleNpuWithProgress_config (cycle : Nat) :
    (a.cycleNpuWithProgress cycle).config = a.config :=
  updateTvc_config _ _

@[simp] theorem cycleNpuWithProgress_tokens (cycle : Nat) :
    (a.cycleNpuWithProgress cycle).tokens = a.tokens :=
  updateTvc_tokens _ _

@[simp] theorem cycleNpuWithProgress_predictor (cycle : Nat) :
    (a.cycleNpuWithProgress cycle).predictor = a.predictor :=
  updateTvc_predictor _ _

end Results

end AHASDIntegration

end Ahasd
