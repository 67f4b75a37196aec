/-
  File:      Ahasd/VSKMModes.lean
  Subject:   THE THREE MODES OF THE KV MANAGER COMPARED, on one sequence of calls.

  * `Call`, `VSKM.apply`, `VSKM.replay`: the calls of the interface and a sequence of them;
  * `TokenLedger`: what a sequence of calls does, counted in tokens and free of any mode: the drafts
    made, open and at most open, and each rollback as (rejected, context);
  * `Prices`: what the mode charges for a draft, a rejected draft and a rollback. `Priced`: the
    statistics are the ledger at the prices of the instance; **`priced_replay`**: after every
    sequence;
  * `Prices.Below`: vskm charges no more than paged, and paged no more than naive;
  * `RollbackMonotone`: of one verification, the more is rejected the more the rollback costs. The
    context of the rollback holds the accepted drafts twice, so that beyond one virtual batch a
    verification that rejects less may cost more.
-/
import Mathlib.Tactic.Linarith
import Mathlib.Tactic.NormNum
import Mathlib.Algebra.Order.Archimedean.Basic
import Mathlib.Algebra.Order.BigOperators.Group.List
import Ahasd.VSKM

namespace Ahasd

open Std OrderedMap

/-! ## 1. Sequences of calls -/

/-- A call of the interface that changes the manager. -/
inductive VSKM.Call where
  | resetRequest (requestId committedLength : Nat)
  | beginRound (requestId specRound committedLength plannedDraftLength : Nat)
  | draftToken (requestId : Nat)
  | preVerify (requestId : Nat)
  | completeVerify (requestId draftLength acceptedLength : Nat)
  deriving DecidableEq

/-- The state after a call. -/
def VSKM.apply (v : VSKM) : VSKM.Call → VSKM
  | .resetRequest id length => v.resetRequest id length
  | .beginRound id round length planned => v.beginRound id round length planned
  | .draftToken id => v.draftToken id
  | .preVerify id => v.preVerify id
  | .completeVerify id k accepted => (v.completeVerify id k accepted).2

/-- The state after a sequence of calls. -/
def VSKM.replay (v : VSKM) (calls : List VSKM.Call) : VSKM :=
  calls.foldl VSKM.apply v

/-! ## 2. The ledger of tokens -/

/-- What the calls do, in tokens: per request the committed length and the open drafts. -/
structure TokenLedger where
  rounds : Nat → Option (Nat × Nat) := fun _ => none
  drafts : Nat := 0
  openDrafts : Nat := 0
  peakDrafts : Nat := 0
  rollbacks : List (Nat × Nat) := []

namespace TokenLedger

/-- The rollback of a verification, if it rejects a token: how many tokens are rejected, and the
    context, which is the committed length with the accepted tokens, and the drafts after it. -/
def rollback (length drafted k accepted : Nat) : List (Nat × Nat) :=
  let drafts := max k drafted
  if accepted < drafts then [(drafts - accepted, length + min accepted drafts + drafts)] else []

/-- The rejected tokens of all rollbacks. -/
def rejected (l : TokenLedger) : Nat := (l.rollbacks.map Prod.fst).sum

/-- The open drafts of a request. -/
def openOf (l : TokenLedger) (requestId : Nat) : Nat :=
  ((l.rounds requestId).map Prod.snd).getD 0

/-- A round is opened, or reset, at a committed length. -/
def open_ (l : TokenLedger) (requestId length : Nat) : TokenLedger :=
  { l with rounds := Function.update l.rounds requestId (some (length, 0)) }

/-- A token is drafted. -/
def draft (l : TokenLedger) (requestId : Nat) : TokenLedger :=
  { l with
    rounds := Function.update l.rounds requestId
      (some (((l.rounds requestId).map Prod.fst).getD 0, l.openOf requestId + 1))
    drafts := l.drafts + 1
    openDrafts := l.openDrafts + 1
    peakDrafts := max l.peakDrafts (l.openDrafts + 1) }

/-- The drafts of a request are verified: what is not accepted is rolled back. -/
def verify (l : TokenLedger) (requestId k accepted : Nat) : TokenLedger :=
  match l.rounds requestId with
  | none => l
  | some (length, drafted) =>
      { l with
        rounds := Function.update l.rounds requestId
          (some (length + min accepted (max k drafted), 0))
        openDrafts := l.openDrafts - drafted
        rollbacks := l.rollbacks ++ rollback length drafted k accepted }

/-- A call of the interface on the ledger. -/
def apply (l : TokenLedger) : VSKM.Call → TokenLedger
  | .resetRequest id length => l.open_ id length
  | .beginRound id _ length _ => l.open_ id length
  | .draftToken id => l.draft id
  | .preVerify _ => l
  | .completeVerify id k accepted => l.verify id k accepted

/-- The ledger of a sequence of calls. -/
def replay (calls : List VSKM.Call) : TokenLedger :=
  calls.foldl apply {}

end TokenLedger

/-! ## 3. The prices of a mode -/

/-- What an instance charges: bytes for a draft written, held, rejected and moved, and the traffic
    and the cycles of a rollback. -/
structure Prices where
  write : Nat
  resident : Nat
  reject : Nat
  external : Nat
  traffic : Nat → Nat → Nat
  cycles : Nat → Nat → Nat

namespace VSKM

/-- The prices of an instance. -/
def prices (v : VSKM) : Prices where
  write := v.scaledBytes v.writeFactor
  resident := v.scaledBytes (v.residentFactor * v.virtualUncommittedBatches)
  reject := v.scaledBytes v.rejectWriteFactor
  external := v.scaledBytes v.externalTrafficFactor
  traffic := v.estimateRollbackTrafficBytes
  cycles := v.estimateRollbackCycles

/-- No call changes the configuration or the prices. -/
theorem apply_setup (v : VSKM) (c : Call) :
    (v.apply c).cfg = v.cfg ∧ (v.apply c).prices = v.prices := by
  cases c with
  | resetRequest => exact ⟨rfl, rfl⟩
  | beginRound => exact ⟨rfl, rfl⟩
  | draftToken => exact ⟨rfl, rfl⟩
  | preVerify id =>
      unfold apply preVerify
      dsimp only
      split <;> exact ⟨rfl, rfl⟩
  | completeVerify id k accepted =>
      unfold apply completeVerify
      dsimp only
      split <;> exact ⟨rfl, rfl⟩

theorem apply_prices (v : VSKM) (c : Call) : (v.apply c).prices = v.prices := (v.apply_setup c).2

theorem replay_cfg (v : VSKM) (calls : List Call) : (v.replay calls).cfg = v.cfg := by
  induction calls generalizing v with
  | nil => rfl
  | cons c calls ih => exact (ih (v.apply c)).trans (v.apply_setup c).1

end VSKM

/-- **The state is the ledger at the prices.** -/
structure Priced (p : Prices) (v : VSKM) (l : TokenLedger) : Prop where
  rounds : ∀ id, v.versionOf id = l.rounds id
  regions : ∀ id, v.regionOf id = p.resident * l.openOf id
  current : v.currentSpeculativeKvBytes = p.resident * l.openDrafts
  peak : v.stats.peakSpeculativeKvBytes = p.resident * l.peakDrafts
  written : v.stats.totalKvWriteBytes = p.write * l.drafts
  rejected : v.stats.rejectedKvWriteBytes = p.reject * l.rejected
  moved : v.stats.externalKvTrafficBytes = p.external * (l.drafts + l.rejected) +
    (l.rollbacks.map fun r => p.traffic r.1 r.2).sum
  stalled : v.stats.rollbackCycles = (l.rollbacks.map fun r => p.cycles r.1 r.2).sum

/-! ## 4. Every call keeps the books -/

namespace TokenLedger

theorem openOf_update {l l' : TokenLedger} {requestId length n : Nat}
    (h : l'.rounds = Function.update l.rounds requestId (some (length, n))) (id : Nat) :
    l'.openOf id = if id = requestId then n else l.openOf id := by
  unfold openOf
  rw [h, Function.update_apply]
  split <;> rfl

theorem open_openOf (l : TokenLedger) (requestId length id : Nat) :
    (l.open_ requestId length).openOf id = if id = requestId then 0 else l.openOf id :=
  openOf_update rfl id

theorem draft_openOf (l : TokenLedger) (requestId id : Nat) :
    (l.draft requestId).openOf id = if id = requestId then l.openOf requestId + 1 else l.openOf id :=
  openOf_update rfl id

end TokenLedger

theorem Priced.start (v : VSKM) (hfresh : v.requests = ∅) (hstats : v.stats = {})
    (hcurrent : v.currentSpeculativeKvBytes = 0) : Priced v.prices v {} := by
  refine ⟨fun id => ?_, fun id => ?_, ?_, ?_, ?_, ?_, ?_, ?_⟩
  · unfold VSKM.versionOf
    rw [hfresh, TreeMap.getElem?_emptyc]
    rfl
  · unfold VSKM.regionOf
    rw [hfresh, TreeMap.getElem?_emptyc]
    rfl
  · exact hcurrent
  all_goals
    rw [hstats]
    rfl

/-- **What a verification returns and charges**, for a request the manager knows. -/
theorem VSKM.completeVerify_charges {v : VSKM} {requestId length drafted : Nat}
    (h : v.versionOf requestId = some (length, drafted)) (k accepted : Nat) :
    let rollback := TokenLedger.rollback length drafted k accepted
    let after := (v.completeVerify requestId k accepted).2
    (v.completeVerify requestId k accepted).1 =
        (rollback.map fun r => v.prices.cycles r.1 r.2).sum ∧
      after.currentSpeculativeKvBytes = v.currentSpeculativeKvBytes - v.regionOf requestId ∧
      after.stats.peakSpeculativeKvBytes = v.stats.peakSpeculativeKvBytes ∧
      after.stats.totalKvWriteBytes = v.stats.totalKvWriteBytes ∧
      after.stats.rejectedKvWriteBytes =
        v.stats.rejectedKvWriteBytes + v.prices.reject * (rollback.map Prod.fst).sum ∧
      after.stats.externalKvTrafficBytes = v.stats.externalKvTrafficBytes +
        v.prices.external * (rollback.map Prod.fst).sum +
        (rollback.map fun r => v.prices.traffic r.1 r.2).sum ∧
      after.stats.rollbackCycles =
        v.stats.rollbackCycles + (rollback.map fun r => v.prices.cycles r.1 r.2).sum := by
  obtain ⟨state, hstate, hversion⟩ := Option.map_eq_some_iff.mp h
  cases hversion
  have hregion : v.regionOf requestId = state.activeRegionBytes := by
    unfold VSKM.regionOf
    rw [hstate]
    rfl
  have hcurrent : (if state.activeRegionBytes ≤ v.currentSpeculativeKvBytes then
      v.currentSpeculativeKvBytes - state.activeRegionBytes else 0) =
      v.currentSpeculativeKvBytes - v.regionOf requestId := by
    rw [hregion]
    split <;> omega
  unfold VSKM.completeVerify TokenLedger.rollback
  rw [hstate]
  dsimp only
  by_cases hreject : accepted < max k state.draftedTokens
  · have hmin : min accepted (max k state.draftedTokens) = accepted := Nat.min_eq_left hreject.le
    rw [hmin, if_pos (Nat.sub_pos_of_lt hreject), if_pos hreject]
    exact ⟨rfl, hcurrent, rfl, rfl, rfl, rfl, rfl⟩
  · have hmin : min accepted (max k state.draftedTokens) = max k state.draftedTokens :=
      Nat.min_eq_right (Nat.le_of_not_lt hreject)
    rw [hmin, Nat.sub_self, if_neg (Nat.lt_irrefl 0), if_neg hreject]
    exact ⟨rfl, hcurrent, rfl, rfl, rfl, rfl, rfl⟩

/-- A verification of an unknown request does nothing. -/
theorem VSKM.completeVerify_unknown {v : VSKM} {requestId : Nat}
    (h : v.versionOf requestId = none) (k accepted : Nat) :
    v.completeVerify requestId k accepted = (0, v) := by
  have hnone : v.requests[requestId]? = none := Option.map_eq_none_iff.mp h
  unfold VSKM.completeVerify
  rw [hnone]

section Steps

variable {v : VSKM} {l : TokenLedger} (P : Priced v.prices v l) (requestId : Nat)

include P

/-- A call that only opens a round costs nothing. -/
theorem Priced.opened {v' : VSKM} {length : Nat}
    (hversion : ∀ id, v'.versionOf id =
      if id = requestId then some (length, 0) else v.versionOf id)
    (hregion : ∀ id, v'.regionOf id = if id = requestId then 0 else v.regionOf id)
    (hcurrent : v'.currentSpeculativeKvBytes = v.currentSpeculativeKvBytes)
    (hpeak : v'.stats.peakSpeculativeKvBytes = v.stats.peakSpeculativeKvBytes)
    (hwritten : v'.stats.totalKvWriteBytes = v.stats.totalKvWriteBytes)
    (hrejected : v'.stats.rejectedKvWriteBytes = v.stats.rejectedKvWriteBytes)
    (hmoved : v'.stats.externalKvTrafficBytes = v.stats.externalKvTrafficBytes)
    (hstalled : v'.stats.rollbackCycles = v.stats.rollbackCycles) :
    Priced v.prices v' (l.open_ requestId length) := by
  refine ⟨fun id => ?_, fun id => ?_, hcurrent.trans P.current, hpeak.trans P.peak,
    hwritten.trans P.written, hrejected.trans P.rejected, hmoved.trans P.moved,
    hstalled.trans P.stalled⟩
  · rw [hversion, P.rounds]
    exact (Function.update_apply ..).symm
  · rw [hregion, P.regions, TokenLedger.open_openOf]
    split <;> rfl

theorem Priced.draftToken : Priced v.prices (v.draftToken requestId) (l.draft requestId) := by
  have hround := P.rounds requestId
  have hopen := P.regions requestId
  refine ⟨fun id => ?_, fun id => ?_, ?_, ?_, ?_, P.rejected, ?_, P.stalled⟩
  · by_cases heq : id = requestId
    · subst heq
      have hupdate : (l.draft id).rounds id =
          some (((l.rounds id).map Prod.fst).getD 0, l.openOf id + 1) := Function.update_self ..
      rw [hupdate]
      unfold TokenLedger.openOf
      rw [← hround]
      unfold VSKM.versionOf VSKM.draftToken VSKM.requestState
      dsimp only
      rw [lookup_insert, if_pos rfl]
      cases v.requests[id]? <;> rfl
    · rw [v.draftToken_versionOf_other requestId id heq, P.rounds]
      exact (Function.update_of_ne heq ..).symm
  · by_cases heq : id = requestId
    · subst heq
      rw [TokenLedger.draft_openOf, if_pos rfl, Nat.mul_add, Nat.mul_one, ← hopen]
      unfold VSKM.regionOf VSKM.draftToken VSKM.requestState
      dsimp only
      rw [lookup_insert, if_pos rfl]
      cases v.requests[id]? <;> rfl
    · rw [v.draftToken_regionOf_other requestId id heq, P.regions, TokenLedger.draft_openOf,
        if_neg heq]
  · show v.currentSpeculativeKvBytes + v.prices.resident = v.prices.resident * (l.openDrafts + 1)
    rw [P.current, Nat.mul_add, Nat.mul_one]
  · show max v.stats.peakSpeculativeKvBytes (v.currentSpeculativeKvBytes + v.prices.resident) =
      v.prices.resident * max l.peakDrafts (l.openDrafts + 1)
    rw [P.peak, P.current, ← Nat.mul_max_mul_left, Nat.mul_add, Nat.mul_one]
  · show v.stats.totalKvWriteBytes + v.prices.write = v.prices.write * (l.drafts + 1)
    rw [P.written, Nat.mul_add, Nat.mul_one]
  · show v.stats.externalKvTrafficBytes + v.prices.external =
      v.prices.external * (l.drafts + 1 + l.rejected) + _
    rw [P.moved, Nat.add_right_comm l.drafts, Nat.mul_add _ _ 1, Nat.mul_one]
    exact Nat.add_right_comm ..

theorem Priced.completeVerify (k accepted : Nat) :
    Priced v.prices (v.completeVerify requestId k accepted).2 (l.verify requestId k accepted) := by
  cases hround : l.rounds requestId with
  | none =>
      have hsame : l.verify requestId k accepted = l := by
        unfold TokenLedger.verify
        rw [hround]
      rw [hsame, VSKM.completeVerify_unknown ((P.rounds requestId).trans hround)]
      exact P
  | some round =>
      obtain ⟨length, drafted⟩ := round
      have hversion := (P.rounds requestId).trans hround
      have hverify : l.verify requestId k accepted =
          { l with
            rounds := Function.update l.rounds requestId
              (some (length + min accepted (max k drafted), 0))
            openDrafts := l.openDrafts - drafted
            rollbacks := l.rollbacks ++ TokenLedger.rollback length drafted k accepted } := by
        unfold TokenLedger.verify
        rw [hround]
      have hopen : l.openOf requestId = drafted := by
        unfold TokenLedger.openOf
        rw [hround]
        rfl
      obtain ⟨-, hcurrent, hpeak, hwritten, hrejected, hmoved, hstalled⟩ :=
        VSKM.completeVerify_charges hversion k accepted
      have hsum : (l.verify requestId k accepted).rejected =
          l.rejected + ((TokenLedger.rollback length drafted k accepted).map Prod.fst).sum := by
        rw [hverify]
        unfold TokenLedger.rejected
        rw [List.map_append, List.sum_append]
      refine ⟨fun id => ?_, fun id => ?_, ?_, ?_, ?_, ?_, ?_, ?_⟩
      · rw [hverify]
        by_cases heq : id = requestId
        · subst heq
          rw [(v.completeVerify_versionOf id hversion k accepted).1]
          exact (Function.update_self id _ l.rounds).symm
        · rw [v.completeVerify_versionOf_other requestId id k accepted heq, P.rounds]
          exact (Function.update_of_ne heq ..).symm
      · have hof := TokenLedger.openOf_update (congrArg TokenLedger.rounds hverify) id
        rw [v.completeVerify_regionOf, hof, P.regions]
        split <;> rfl
      · rw [hcurrent, P.current, P.regions, hopen, hverify]
        exact (Nat.mul_sub ..).symm
      · rw [hpeak, P.peak, hverify]
      · rw [hwritten, P.written, hverify]
      · rw [hrejected, P.rejected, hsum, Nat.mul_add]
      · rw [hmoved, P.moved, hsum, hverify, List.map_append, List.sum_append]
        simp only [Nat.mul_add]
        omega
      · rw [hstalled, P.stalled, hverify, List.map_append, List.sum_append]

/-- **Every call takes the priced ledger to the priced ledger.** -/
theorem Priced.apply (c : VSKM.Call) : Priced v.prices (v.apply c) (l.apply c) := by
  cases c with
  | resetRequest id length =>
      exact P.opened id (fun other => v.resetRequest_versionOf id other length)
        (fun other => v.resetRequest_regionOf id other length) rfl rfl rfl rfl rfl rfl
  | beginRound id round length planned =>
      exact P.opened id (fun other => v.beginRound_versionOf id other round length planned)
        (fun other => v.beginRound_regionOf id other round length planned) rfl rfl rfl rfl rfl rfl
  | draftToken id => exact P.draftToken id
  | preVerify id =>
      have hsame : (v.preVerify id).stats.peakSpeculativeKvBytes = v.stats.peakSpeculativeKvBytes ∧
          (v.preVerify id).currentSpeculativeKvBytes = v.currentSpeculativeKvBytes ∧
          (v.preVerify id).stats.totalKvWriteBytes = v.stats.totalKvWriteBytes ∧
          (v.preVerify id).stats.rejectedKvWriteBytes = v.stats.rejectedKvWriteBytes ∧
          (v.preVerify id).stats.externalKvTrafficBytes = v.stats.externalKvTrafficBytes ∧
          (v.preVerify id).stats.rollbackCycles = v.stats.rollbackCycles := by
        unfold VSKM.preVerify
        split <;> exact ⟨rfl, rfl, rfl, rfl, rfl, rfl⟩
      obtain ⟨hpeak, hcurrent, hwritten, hrejected, hmoved, hstalled⟩ := hsame
      exact ⟨fun other => (v.preVerify_versionOf id other).trans (P.rounds other),
        fun other => (v.preVerify_regionOf id other).trans (P.regions other),
        hcurrent.trans P.current, hpeak.trans P.peak, hwritten.trans P.written,
        hrejected.trans P.rejected, hmoved.trans P.moved, hstalled.trans P.stalled⟩
  | completeVerify id k accepted => exact P.completeVerify id k accepted

end Steps

/-- **After every sequence of calls, an instance is the ledger of the calls at its prices.** -/
theorem priced_replay (cfg : VSKMConfig) (kv : Nat) (calls : List VSKM.Call) :
    Priced (VSKM.new cfg kv).prices ((VSKM.new cfg kv).replay calls)
      (TokenLedger.replay calls) := by
  have hrun : ∀ (v : VSKM) (l : TokenLedger), Priced v.prices v l →
      Priced v.prices (v.replay calls) (calls.foldl TokenLedger.apply l) := by
    induction calls with
    | nil => exact fun v l P => P
    | cons c calls ih =>
        intro v l P
        have hnext := ih (v.apply c) (l.apply c) (by rw [v.apply_prices]; exact P.apply c)
        rw [v.apply_prices] at hnext
        exact hnext
  exact hrun _ {} (Priced.start _ rfl rfl rfl)

/-! ## 5. The order of the modes -/

/-- No statistic of the first is above that of the second. -/
structure VSKMStats.Below (s s' : VSKMStats) : Prop where
  written : s.totalKvWriteBytes ≤ s'.totalKvWriteBytes
  peak : s.peakSpeculativeKvBytes ≤ s'.peakSpeculativeKvBytes
  rejected : s.rejectedKvWriteBytes ≤ s'.rejectedKvWriteBytes
  moved : s.externalKvTrafficBytes ≤ s'.externalKvTrafficBytes
  stalled : s.rollbackCycles ≤ s'.rollbackCycles

/-- No price of the first is above that of the second. -/
structure Prices.Below (p q : Prices) : Prop where
  write : p.write ≤ q.write
  resident : p.resident ≤ q.resident
  reject : p.reject ≤ q.reject
  external : p.external ≤ q.external
  traffic : ∀ rejected context, p.traffic rejected context ≤ q.traffic rejected context
  cycles : ∀ rejected context, p.cycles rejected context ≤ q.cycles rejected context

/-- **One ledger costs less at lower prices.** -/
theorem Priced.below {p q : Prices} {v w : VSKM} {l : TokenLedger} (P : Priced p v l)
    (Q : Priced q w l) (h : p.Below q) : v.stats.Below w.stats where
  written := by
    rw [P.written, Q.written]
    exact Nat.mul_le_mul_right _ h.write
  peak := by
    rw [P.peak, Q.peak]
    exact Nat.mul_le_mul_right _ h.resident
  rejected := by
    rw [P.rejected, Q.rejected]
    exact Nat.mul_le_mul_right _ h.reject
  moved := by
    rw [P.moved, Q.moved]
    exact Nat.add_le_add (Nat.mul_le_mul_right _ h.external)
      (List.sum_le_sum fun r _ => h.traffic r.1 r.2)
  stalled := by
    rw [P.stalled, Q.stalled]
    exact List.sum_le_sum fun r _ => h.cycles r.1 r.2

namespace VSKM

section Order

variable {v w : VSKM}

theorem one_le_virtualUncommittedBatches (v : VSKM) : 1 ≤ v.virtualUncommittedBatches :=
  le_max_left _ _

theorem scaledBytes_le (hkv : v.kvBytesPerToken = w.kvBytesPerToken) {f g : ℚ} (h : f ≤ g) :
    v.scaledBytes f ≤ w.scaledBytes g := by
  unfold scaledBytes
  rw [hkv]
  exact max_le_max_left 1
    (Nat.floor_mono (mul_le_mul_of_nonneg_left h (Nat.cast_nonneg w.kvBytesPerToken)))

theorem estimateRollback_le (hvb : v.virtualUncommittedBatches = w.virtualUncommittedBatches)
    (h : v.rollbackFactor ≤ w.rollbackFactor) (fixed perToken rejected context : Nat) :
    v.estimateRollback fixed perToken rejected context ≤
      w.estimateRollback fixed perToken rejected context := by
  unfold estimateRollback
  rw [hvb]
  exact max_le_max_left 1 (Nat.floor_mono (mul_le_mul_of_nonneg_left h (Nat.cast_nonneg _)))

/-- Lower factors make lower prices. -/
theorem prices_below (hkv : v.kvBytesPerToken = w.kvBytesPerToken)
    (hvb : v.virtualUncommittedBatches = w.virtualUncommittedBatches)
    (hwrite : v.writeFactor ≤ w.writeFactor) (hresident : v.residentFactor ≤ w.residentFactor)
    (hreject : v.rejectWriteFactor ≤ w.rejectWriteFactor)
    (hexternal : v.externalTrafficFactor ≤ w.externalTrafficFactor)
    (hrollback : v.rollbackFactor ≤ w.rollbackFactor) : v.prices.Below w.prices where
  write := scaledBytes_le hkv hwrite
  resident := by
    refine scaledBytes_le hkv ?_
    rw [hvb]
    have hone := w.one_le_virtualUncommittedBatches
    exact mul_le_mul_of_nonneg_right hresident (by linarith)
  reject := scaledBytes_le hkv hreject
  external := scaledBytes_le hkv hexternal
  traffic := fun rejected context => by
    show v.estimateRollback 0 v.kvBytesPerToken rejected context ≤
      w.estimateRollback 0 w.kvBytesPerToken rejected context
    rw [hkv]
    exact estimateRollback_le hvb hrollback _ _ _ _
  cycles := fun rejected context => by
    show v.estimateRollback 80 (max 1 (v.kvBytesPerToken / 64)) rejected context ≤
      w.estimateRollback 80 (max 1 (w.kvBytesPerToken / 64)) rejected context
    rw [hkv]
    exact estimateRollback_le hvb hrollback _ _ _ _

theorem modeFactor_naive (h : v.mode = .naive) (paged vskm : ℚ) : v.modeFactor paged vskm = 1 := by
  unfold modeFactor
  rw [h]

theorem modeFactor_paged (h : v.mode = .paged) (paged vskm : ℚ) :
    v.modeFactor paged vskm = paged := by
  unfold modeFactor
  rw [h]

theorem modeFactor_vskm (h : v.mode = .vskm) (paged vskm : ℚ) : v.modeFactor paged vskm = vskm := by
  unfold modeFactor
  rw [h]

/-- The factors of vskm are below those of paged, with lazy rollback or without. -/
theorem vskm_below_paged (hv : v.mode = .vskm) (hw : w.mode = .paged)
    (hkv : v.kvBytesPerToken = w.kvBytesPerToken)
    (hvb : v.virtualUncommittedBatches = w.virtualUncommittedBatches) :
    v.prices.Below w.prices := by
  have hfactor : ∀ p s p' s' : ℚ, s ≤ p' → v.modeFactor p s ≤ w.modeFactor p' s' := by
    intro p s p' s' h
    rw [modeFactor_vskm hv, modeFactor_paged hw]
    exact h
  have hlazy : (if v.cfg.enableLazyRollback then 16 / 100 else 41 / 100 : ℚ) ≤ 46 / 100 := by
    split <;> norm_num
  exact prices_below hkv hvb (hfactor _ _ _ _ (by norm_num)) (hfactor _ _ _ _ (by norm_num))
    (hfactor _ _ _ _ (by norm_num)) (hfactor _ _ _ _ (by norm_num)) (hfactor _ _ _ _ hlazy)

/-- The factors of paged are below 1. -/
theorem paged_below_naive (hv : v.mode = .paged) (hw : w.mode = .naive)
    (hkv : v.kvBytesPerToken = w.kvBytesPerToken)
    (hvb : v.virtualUncommittedBatches = w.virtualUncommittedBatches) :
    v.prices.Below w.prices := by
  have hfactor : ∀ p s p' s' : ℚ, p ≤ 1 → v.modeFactor p s ≤ w.modeFactor p' s' := by
    intro p s p' s' h
    rw [modeFactor_paged hv, modeFactor_naive hw]
    exact h
  exact prices_below hkv hvb (hfactor _ _ _ _ (by norm_num)) (hfactor _ _ _ _ (by norm_num))
    (hfactor _ _ _ _ (by norm_num)) (hfactor _ _ _ _ (by norm_num))
    (hfactor _ _ _ _ (by norm_num))

end Order

/-! ## 6. The cost of a rollback against the rejected tokens -/

/-- **Of one verification, the fewer drafts it accepts the more it costs.** -/
def RollbackMonotone (v : VSKM) : Prop :=
  ∀ requestId k accepted accepted' : Nat, accepted ≤ accepted' →
    (v.completeVerify requestId k accepted').1 ≤ (v.completeVerify requestId k accepted).1

section Cost

variable {v : VSKM}

/-- What a verification returns: nothing unless it rejects a draft. -/
theorem completeVerify_cost {requestId length drafted : Nat}
    (h : v.versionOf requestId = some (length, drafted)) (k accepted : Nat) :
    (v.completeVerify requestId k accepted).1 =
      if accepted < max k drafted then
        v.estimateRollbackCycles (max k drafted - accepted) (length + accepted + max k drafted)
      else 0 := by
  rw [(completeVerify_charges h k accepted).1]
  unfold TokenLedger.rollback
  dsimp only
  split
  · next hreject =>
      rw [Nat.min_eq_left hreject.le]
      rfl
  · rfl

/-- With one virtual batch, only the context and the rejected tokens together count. -/
theorem estimateRollback_one_batch (hvb : v.virtualUncommittedBatches = 1) (fixed perToken : Nat)
    {rejected context : Nat} (hcontext : 1 ≤ context) :
    v.estimateRollback fixed perToken rejected context =
      max 1 ⌊((fixed + perToken * (context + rejected) : Nat) : ℚ) * v.rollbackFactor⌋₊ := by
  unfold estimateRollback
  dsimp only
  rw [hvb, mul_one, Nat.max_eq_right hcontext, ← Nat.cast_mul, Nat.floor_natCast, Nat.mul_add,
    Nat.add_assoc]

theorem rollbackMonotone_of_one_batch (hvb : v.virtualUncommittedBatches = 1) :
    v.RollbackMonotone := by
  intro requestId k accepted accepted' hle
  cases hversion : v.versionOf requestId with
  | none => simp [completeVerify_unknown hversion]
  | some round =>
      obtain ⟨length, drafted⟩ := round
      rw [completeVerify_cost hversion, completeVerify_cost hversion]
      by_cases hreject : accepted' < max k drafted
      · -- the context grows by as much as the rejected suffix shrinks
        rw [if_pos hreject, if_pos (hle.trans_lt hreject)]
        unfold estimateRollbackCycles
        rw [estimateRollback_one_batch hvb _ _ (by omega),
          estimateRollback_one_batch hvb _ _ (by omega)]
        have hsame : length + accepted' + max k drafted + (max k drafted - accepted') =
            length + accepted + max k drafted + (max k drafted - accepted) := by omega
        rw [hsame]
      · rw [if_neg hreject]
        exact Nat.zero_le _

theorem rollbackFactor_ge (v : VSKM) : 16 / 100 ≤ v.rollbackFactor := by
  unfold rollbackFactor modeFactor
  split
  · norm_num
  · split <;> norm_num
  · norm_num

/-- Seven more before the mode factor is at least one more after it. -/
theorem estimateRollback_lt (v : VSKM) {fixed perToken rejected rejected' context context' : Nat}
    (hfixed : 7 ≤ fixed)
    (h : ⌊(perToken : ℚ) * (max 1 context : Nat) * v.virtualUncommittedBatches⌋₊ +
        perToken * rejected + 7 ≤
      ⌊(perToken : ℚ) * (max 1 context' : Nat) * v.virtualUncommittedBatches⌋₊ +
        perToken * rejected') :
    v.estimateRollback fixed perToken rejected context <
      v.estimateRollback fixed perToken rejected' context' := by
  unfold estimateRollback
  dsimp only
  generalize ⌊(perToken : ℚ) * (max 1 context : Nat) * v.virtualUncommittedBatches⌋₊ = c at h ⊢
  generalize ⌊(perToken : ℚ) * (max 1 context' : Nat) * v.virtualUncommittedBatches⌋₊ = c' at h ⊢
  have hfactor := v.rollbackFactor_ge
  have hbase : ((fixed + c + perToken * rejected : Nat) : ℚ) + 7 ≤
      ((fixed + c' + perToken * rejected' : Nat) : ℚ) := by
    exact_mod_cast (by omega : fixed + c + perToken * rejected + 7 ≤
      fixed + c' + perToken * rejected')
  have hseven : (7 : ℚ) ≤ ((fixed + c + perToken * rejected : Nat) : ℚ) := by
    exact_mod_cast (by omega : 7 ≤ fixed + c + perToken * rejected)
  generalize ((fixed + c + perToken * rejected : Nat) : ℚ) = base at hbase hseven ⊢
  generalize ((fixed + c' + perToken * rejected' : Nat) : ℚ) = base' at hbase ⊢
  have hone : 1 ≤ ⌊base * v.rollbackFactor⌋₊ := by
    refine Nat.le_floor ?_
    rw [Nat.cast_one]
    nlinarith
  have hnext : ⌊base * v.rollbackFactor⌋₊ + 1 ≤ ⌊base' * v.rollbackFactor⌋₊ := by
    refine Nat.le_floor ?_
    have hfloor := Nat.floor_le (by nlinarith : 0 ≤ base * v.rollbackFactor)
    push_cast
    nlinarith
  omega

/-- **With more than one virtual batch, accepting all drafts but one costs more than accepting
    none**, when enough is drafted. -/
theorem not_rollbackMonotone (hvb : 1 < v.virtualUncommittedBatches) {requestId : Nat}
    {round : Nat × Nat} (hversion : v.versionOf requestId = some round) :
    ¬ v.RollbackMonotone := by
  intro hmonotone
  obtain ⟨length, drafted⟩ := round
  obtain ⟨n, hn⟩ := exists_nat_ge (8 / (v.virtualUncommittedBatches - 1))
  -- all of the drafts but one are more than eight over the gain of a virtual batch
  have hmany : 8 ≤ ((n + drafted : Nat) : ℚ) * (v.virtualUncommittedBatches - 1) := by
    have hgain : 0 < v.virtualUncommittedBatches - 1 := by linarith
    have height := (div_le_iff₀ hgain).mp hn
    have hdrafted : (0 : ℚ) ≤ drafted * (v.virtualUncommittedBatches - 1) :=
      mul_nonneg (Nat.cast_nonneg _) hgain.le
    push_cast
    linarith
  generalize hm : n + drafted = m at hmany
  have hcost := hmonotone requestId (m + 1) 0 m (Nat.zero_le _)
  have hmax : max (m + 1) drafted = m + 1 := by omega
  have hone : m + 1 - m = 1 := by omega
  rw [completeVerify_cost hversion, completeVerify_cost hversion, hmax, if_pos (by omega),
    if_pos (by omega), hone] at hcost
  refine Nat.not_lt.mpr hcost (estimateRollback_lt v (by omega) ?_)
  have hcontext : max 1 (length + 0 + (m + 1)) = length + 0 + (m + 1) := by omega
  have hcontext' : max 1 (length + m + (m + 1)) = length + m + (m + 1) := by omega
  rw [hcontext, hcontext']
  have hper : 1 ≤ max 1 (v.kvBytesPerToken / 64) := Nat.le_max_left _ _
  generalize max 1 (v.kvBytesPerToken / 64) = perToken at hper
  generalize v.virtualUncommittedBatches = batches at hvb hmany
  have hper' : (1 : ℚ) ≤ perToken := by exact_mod_cast hper
  have hless : (⌊(perToken : ℚ) * ((length + 0 + (m + 1) : Nat) : ℚ) * batches⌋₊ : ℚ) ≤
      (perToken : ℚ) * ((length + 0 + (m + 1) : Nat) : ℚ) * batches := Nat.floor_le (by positivity)
  have hmore : (perToken : ℚ) * ((length + m + (m + 1) : Nat) : ℚ) * batches <
      ⌊(perToken : ℚ) * ((length + m + (m + 1) : Nat) : ℚ) * batches⌋₊ + 1 := Nat.lt_floor_add_one _
  have hgrow : (7 : ℚ) ≤ perToken * (m * (batches - 1)) - 1 := by nlinarith
  have hcast : ((⌊(perToken : ℚ) * ((length + 0 + (m + 1) : Nat) : ℚ) * batches⌋₊ +
      perToken * (m + 1 - 0) + 7 : Nat) : ℚ) <
      ((⌊(perToken : ℚ) * ((length + m + (m + 1) : Nat) : ℚ) * batches⌋₊ + perToken * 1 + 1 : Nat) :
        ℚ) := by
    push_cast at hless hmore ⊢
    nlinarith
  exact Nat.lt_succ_iff.mp (by exact_mod_cast hcast)

end Cost

end VSKM

/-! ## 7. The three instances -/

/-- A call after which the manager knows the request. -/
def VSKM.Call.opens : VSKM.Call → Bool
  | .resetRequest _ _ | .beginRound _ _ _ _ | .draftToken _ => true
  | .preVerify _ | .completeVerify _ _ _ => false

theorem TokenLedger.apply_known (l : TokenLedger) (c : VSKM.Call) :
    (∃ id, (l.apply c).rounds id ≠ none) ↔ c.opens = true ∨ ∃ id, l.rounds id ≠ none := by
  have hset : ∀ (rounds : Nat → Option (Nat × Nat)) (requestId : Nat) (round : Nat × Nat),
      ∃ id, Function.update rounds requestId (some round) id ≠ none := fun rounds requestId round =>
    ⟨requestId, by rw [Function.update_self]; exact Option.some_ne_none round⟩
  cases c with
  | resetRequest id length => exact iff_of_true (hset ..) (Or.inl rfl)
  | beginRound id round length planned => exact iff_of_true (hset ..) (Or.inl rfl)
  | draftToken id => exact iff_of_true (hset ..) (Or.inl rfl)
  | preVerify id => exact ⟨Or.inr, fun h => h.resolve_left Bool.noConfusion⟩
  | completeVerify id k accepted =>
      unfold apply verify
      dsimp only
      split
      · exact ⟨Or.inr, fun h => h.resolve_left Bool.noConfusion⟩
      · next round hround =>
          exact iff_of_true (hset ..) (Or.inr ⟨id, by rw [hround]; exact Option.some_ne_none _⟩)

theorem TokenLedger.replay_known (calls : List VSKM.Call) :
    (∃ id, (replay calls).rounds id ≠ none) ↔ ∃ c ∈ calls, c.opens = true := by
  have hrun : ∀ l : TokenLedger, (∃ id, (calls.foldl apply l).rounds id ≠ none) ↔
      (∃ c ∈ calls, c.opens = true) ∨ ∃ id, l.rounds id ≠ none := by
    induction calls with
    | nil => simp
    | cons c calls ih =>
        intro l
        rw [List.foldl_cons, ih, apply_known, List.exists_mem_cons_iff, ← or_assoc,
          or_comm (b := c.opens = true)]
  rw [replay, hrun]
  simp

/-- **When the costs of an instance grow with the rejected tokens.** -/
theorem VSKM.replay_rollbackMonotone_iff (cfg : VSKMConfig) (kv : Nat) (calls : List Call) :
    ((VSKM.new cfg kv).replay calls).RollbackMonotone ↔
      cfg.virtualUncommittedBatches ≤ 1 ∨ ∀ c ∈ calls, c.opens = false := by
  have hP := priced_replay cfg kv calls
  have hcfg := (VSKM.new cfg kv).replay_cfg calls
  have hbatches : ((VSKM.new cfg kv).replay calls).virtualUncommittedBatches =
      max 1 cfg.virtualUncommittedBatches := by
    unfold virtualUncommittedBatches
    rw [hcfg]
    rfl
  generalize (VSKM.new cfg kv).replay calls = v at hP hbatches ⊢
  rcases le_or_gt cfg.virtualUncommittedBatches 1 with hone | hmore
  · rw [max_eq_left hone] at hbatches
    exact iff_of_true (rollbackMonotone_of_one_batch hbatches) (Or.inl hone)
  · rw [max_eq_right hmore.le] at hbatches
    rw [or_iff_right hmore.not_ge]
    constructor
    · intro hmonotone c hc
      by_contra hopens
      obtain ⟨id, hid⟩ := (TokenLedger.replay_known calls).mpr
        ⟨c, hc, Bool.not_eq_false _ ▸ hopens⟩
      obtain ⟨round, hround⟩ := Option.ne_none_iff_exists'.mp hid
      exact not_rollbackMonotone (hbatches ▸ hmore) ((hP.rounds id).trans hround) hmonotone
    · intro hclosed id k accepted accepted' _
      have hnone : v.versionOf id = none := by
        rw [hP.rounds]
        by_contra hid
        obtain ⟨c, hc, hopens⟩ := (TokenLedger.replay_known calls).mp ⟨id, hid⟩
        rw [hclosed c hc] at hopens
        exact Bool.noConfusion hopens
      simp [completeVerify_unknown hnone]

/-- **The three modes on one sequence of calls**: the statistics are ordered at every point; that
    the cost of the next verification grows with what it rejects needs one virtual batch, or a
    manager that knows no request. -/
theorem modes_ordered {cfg cfg' cfg'' : VSKMConfig} (kv : Nat)
    (hvskm : parseKvManagementMode cfg.kvManagementMode cfg.enableVskm = .vskm)
    (hpaged : parseKvManagementMode cfg'.kvManagementMode cfg'.enableVskm = .paged)
    (hnaive : parseKvManagementMode cfg''.kvManagementMode cfg''.enableVskm = .naive)
    (hbatches : cfg.virtualUncommittedBatches = cfg'.virtualUncommittedBatches)
    (hbatches' : cfg'.virtualUncommittedBatches = cfg''.virtualUncommittedBatches)
    (calls : List VSKM.Call) :
    let vskm := (VSKM.new cfg kv).replay calls
    let paged := (VSKM.new cfg' kv).replay calls
    let naive := (VSKM.new cfg'' kv).replay calls
    (vskm.stats.Below paged.stats ∧ paged.stats.Below naive.stats) ∧
      ((vskm.RollbackMonotone ∧ paged.RollbackMonotone ∧ naive.RollbackMonotone) ↔
        cfg.virtualUncommittedBatches ≤ 1 ∨ ∀ c ∈ calls, c.opens = false) := by
  intro vskm paged naive
  have hvp : (VSKM.new cfg kv).virtualUncommittedBatches =
      (VSKM.new cfg' kv).virtualUncommittedBatches := congrArg (max 1) hbatches
  have hpn : (VSKM.new cfg' kv).virtualUncommittedBatches =
      (VSKM.new cfg'' kv).virtualUncommittedBatches := congrArg (max 1) hbatches'
  have hordered := (priced_replay cfg kv calls).below (priced_replay cfg' kv calls)
    (VSKM.vskm_below_paged hvskm hpaged rfl hvp)
  have hordered' := (priced_replay cfg' kv calls).below (priced_replay cfg'' kv calls)
    (VSKM.paged_below_naive hpaged hnaive rfl hpn)
  refine ⟨⟨hordered, hordered'⟩, ?_⟩
  rw [VSKM.replay_rollbackMonotone_iff, VSKM.replay_rollbackMonotone_iff,
    VSKM.replay_rollbackMonotone_iff, ← hbatches', ← hbatches, and_self, and_self]

/-- A round of 16 drafts at the configured 4.7 virtual batches. -/
theorem modes_ordered_sample :
    let calls := VSKM.Call.beginRound 0 1 128 16 :: List.replicate 16 (VSKM.Call.draftToken 0)
    let vskm := (VSKM.new { enableVskm := true, virtualUncommittedBatches := 47 / 10 } 4096).replay calls
    let paged := (VSKM.new
      { kvManagementMode := "paged_kv", virtualUncommittedBatches := 47 / 10 } 4096).replay calls
    let naive := (VSKM.new { virtualUncommittedBatches := 47 / 10 } 4096).replay calls
    (vskm.stats.Below paged.stats ∧ paged.stats.Below naive.stats) ∧
      ((vskm.RollbackMonotone ∧ paged.RollbackMonotone ∧ naive.RollbackMonotone) ↔
        (47 / 10 : ℚ) ≤ 1 ∨ ∀ c ∈ calls, c.opens = false) :=
  @modes_ordered { enableVskm := true, virtualUncommittedBatches := 47 / 10 }
    { kvManagementMode := "paged_kv", virtualUncommittedBatches := 47 / 10 }
    { virtualUncommittedBatches := 47 / 10 } 4096 rfl (by decide) (by decide) rfl rfl _

/-- Rejecting one draft of 16 stalls longer than rejecting all of them. -/
theorem one_rejected_costs_more :
    let naive := (VSKM.new { virtualUncommittedBatches := 47 / 10 } 4096).replay
      (VSKM.Call.beginRound 0 1 128 16 :: List.replicate 16 (VSKM.Call.draftToken 0))
    (naive.completeVerify 0 16 0).1 < (naive.completeVerify 0 16 15).1 ∧
      ¬ naive.RollbackMonotone := by
  intro naive
  have hcosts : (naive.completeVerify 0 16 0).1 < (naive.completeVerify 0 16 15).1 := by
    decide +kernel
  exact ⟨hcosts, fun h => Nat.not_lt.mpr (h 0 16 0 15 (by decide)) hcosts⟩

end Ahasd
