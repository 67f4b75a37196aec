/-
  File:      Ahasd/VSKM.lean
  Subject:   THE VERSIONED SPECULATIVE KV MANAGER (async_queue/VSKM.h).

  The accounting of speculative KV state: per request the committed length and the open region of
  the current round, and the statistics of a run. `double` is an exact rational; a cast to an
  unsigned integer is the floor.

  * `beginRound`, `draftToken`, `preVerify`, `completeVerify`, `resetRequest`: the operations;
  * `modeFactor`, `estimateRollback`: the tables of mode factors and the rollback estimates, each
    form written once;
  * `versionOf`: the committed length and the open drafts of a request, and what each operation
    makes of them;
  * `Accounted`: the speculative bytes are the sum of the open regions; `Follows`: each operation
    keeps this, and the peak follows, when the two that forget a region find it closed;
  * `versionNumber`: the version id of the n-th round, and which rounds share one.
-/
import Mathlib.Data.Rat.Floor
import Ahasd.Lib.OrderedMap

namespace Ahasd

open Std OrderedMap

/-! ## 1. The manager -/

/-- `KVManagementMode`. -/
inductive KVManagementMode where
  | naive
  | paged
  | vskm
  deriving DecidableEq, Repr

/-- `parse_kv_management_mode`. -/
def parseKvManagementMode (mode : String) (enableVskm : Bool) : KVManagementMode :=
  if enableVskm then .vskm
  else if mode = "paged" ∨ mode = "paged_kv" then .paged
  else if mode = "vskm" then .vskm
  else .naive

/-- `VSKMConfig`, the fields VSKM reads. -/
structure VSKMConfig where
  enableVskm : Bool := false
  kvManagementMode : String := "naive"
  versionEntries : Nat := 16
  enableLazyRollback : Bool := true
  virtualUncommittedBatches : ℚ := 1

/-- `VSKMStats`. -/
structure VSKMStats where
  peakSpeculativeKvBytes : Nat := 0
  totalKvWriteBytes : Nat := 0
  rejectedKvWriteBytes : Nat := 0
  externalKvTrafficBytes : Nat := 0
  acceptedTokens : Nat := 0
  rollbackCycles : Nat := 0
  rollbackEvents : Nat := 0
  versionTableLookups : Nat := 0
  freeListReuses : Nat := 0
  metadataUpdates : Nat := 0
  roundsStarted : Nat := 0
  sumUncommittedBatches : ℚ := 0
  peakUncommittedBatches : ℚ := 0

/-- `VSKM::RequestState`. -/
structure VSKM.RequestState where
  commitLength : Nat := 0
  specRound : Nat := 0
  plannedTokens : Nat := 0
  draftedTokens : Nat := 0
  versionId : Nat := 0
  activeRegionBytes : Nat := 0
  deriving DecidableEq, Repr

/-- The state of the manager. -/
structure VSKM where
  cfg : VSKMConfig
  mode : KVManagementMode
  kvBytesPerToken : Nat
  nextVersionId : Nat := 1
  currentSpeculativeKvBytes : Nat := 0
  stats : VSKMStats := {}
  requests : TreeMap Nat VSKM.RequestState := ∅

namespace VSKM

/-- The constructor. -/
def new (cfg : VSKMConfig) (kvBytesPerToken : Nat) : VSKM where
  cfg := cfg
  mode := parseKvManagementMode cfg.kvManagementMode cfg.enableVskm
  kvBytesPerToken := max 1 kvBytesPerToken

/-- `scaled_bytes`. -/
def scaledBytes (v : VSKM) (factor : ℚ) : Nat :=
  max 1 ⌊v.kvBytesPerToken * factor⌋₊

/-- The common form of the mode factors: 1 in the naive mode. -/
def modeFactor (v : VSKM) (paged vskm : ℚ) : ℚ :=
  match v.mode with
  | .paged => paged
  | .vskm => vskm
  | .naive => 1

/-- `write_factor`. -/
def writeFactor (v : VSKM) : ℚ := v.modeFactor (91 / 100) (62 / 100)

/-- `resident_factor`. -/
def residentFactor (v : VSKM) : ℚ := v.modeFactor (82 / 100) (57 / 100)

/-- `reject_write_factor`. -/
def rejectWriteFactor (v : VSKM) : ℚ := v.modeFactor (91 / 100) (62 / 100)

/-- `external_traffic_factor`. -/
def externalTrafficFactor (v : VSKM) : ℚ := v.modeFactor (88 / 100) (71 / 100)

/-- `virtual_uncommitted_batches`. -/
def virtualUncommittedBatches (v : VSKM) : ℚ :=
  max 1 v.cfg.virtualUncommittedBatches

/-- The mode factor of both rollback estimates. -/
def rollbackFactor (v : VSKM) : ℚ :=
  v.modeFactor (46 / 100) (if v.cfg.enableLazyRollback then 16 / 100 else 41 / 100)

/-- The common form of the rollback estimates: a fixed cost, the active context and the rejected
    suffix at `perToken` each, reduced by the mode factor. -/
def estimateRollback (v : VSKM) (fixed perToken rejectedTokens contextTokens : Nat) : Nat :=
  let context := ⌊(perToken : ℚ) * (max 1 contextTokens : Nat) * v.virtualUncommittedBatches⌋₊
  let suffix := perToken * rejectedTokens
  max 1 ⌊((fixed + context + suffix : Nat) : ℚ) * v.rollbackFactor⌋₊

/-- `estimate_rollback_cycles`. -/
def estimateRollbackCycles (v : VSKM) (rejectedTokens contextTokens : Nat) : Nat :=
  v.estimateRollback 80 (max 1 (v.kvBytesPerToken / 64)) rejectedTokens contextTokens

/-- `estimate_rollback_traffic_bytes`. -/
def estimateRollbackTrafficBytes (v : VSKM) (rejectedTokens contextTokens : Nat) : Nat :=
  v.estimateRollback 0 v.kvBytesPerToken rejectedTokens contextTokens

/-- `requests_[request_id]`: the entry, default-constructed when absent. -/
def requestState (v : VSKM) (requestId : Nat) : RequestState :=
  (v.requests[requestId]?).getD {}

/-- `reset_request`. -/
def resetRequest (v : VSKM) (requestId committedLength : Nat) : VSKM :=
  { v with requests := v.requests.insert requestId { commitLength := committedLength } }

/-- `begin_round`: the 32-bit counter of version ids goes back to 1 past the last entry. -/
def beginRound (v : VSKM) (requestId specRound committedLength plannedDraftLength : Nat) : VSKM :=
  let state := v.requestState requestId
  let next := (v.nextVersionId + 1) % 2 ^ 32
  { v with
    requests := v.requests.insert requestId
      { state with
        commitLength := committedLength
        specRound := specRound
        plannedTokens := max 1 plannedDraftLength
        draftedTokens := 0
        activeRegionBytes := 0
        versionId := v.nextVersionId }
    nextVersionId := if next > v.cfg.versionEntries ∧ v.cfg.versionEntries > 0 then 1 else next
    stats := { v.stats with
      versionTableLookups := v.stats.versionTableLookups + 1
      metadataUpdates := v.stats.metadataUpdates + 1
      roundsStarted := v.stats.roundsStarted + 1
      sumUncommittedBatches := v.stats.sumUncommittedBatches + v.virtualUncommittedBatches
      peakUncommittedBatches :=
        max v.stats.peakUncommittedBatches v.virtualUncommittedBatches } }

/-- `draft_token`. -/
def draftToken (v : VSKM) (requestId : Nat) : VSKM :=
  let state := v.requestState requestId
  let writeBytes := v.scaledBytes v.writeFactor
  let residentBytes := v.scaledBytes (v.residentFactor * v.virtualUncommittedBatches)
  let current := v.currentSpeculativeKvBytes + residentBytes
  { v with
    requests := v.requests.insert requestId
      { state with
        draftedTokens := state.draftedTokens + 1
        activeRegionBytes := state.activeRegionBytes + residentBytes }
    currentSpeculativeKvBytes := current
    stats := { v.stats with
      peakSpeculativeKvBytes := max v.stats.peakSpeculativeKvBytes current
      totalKvWriteBytes := v.stats.totalKvWriteBytes + writeBytes
      externalKvTrafficBytes :=
        v.stats.externalKvTrafficBytes + v.scaledBytes v.externalTrafficFactor } }

/-- `pre_verify`. -/
def preVerify (v : VSKM) (requestId : Nat) : VSKM :=
  match v.requests[requestId]? with
  | none => v
  | some _ =>
      { v with
        stats := { v.stats with
          versionTableLookups := v.stats.versionTableLookups + 1
          metadataUpdates := v.stats.metadataUpdates + 1 } }

/-- The statistics of a rollback: the branch `rejected > 0` of `complete_verify`. -/
def chargeRollback (v : VSKM) (rejected contextTokens : Nat) : Nat × VSKMStats :=
  let cycles := v.estimateRollbackCycles rejected contextTokens
  (cycles,
    { v.stats with
      rollbackEvents := v.stats.rollbackEvents + 1
      rejectedKvWriteBytes :=
        v.stats.rejectedKvWriteBytes + v.scaledBytes v.rejectWriteFactor * rejected
      externalKvTrafficBytes :=
        v.stats.externalKvTrafficBytes + v.scaledBytes v.externalTrafficFactor * rejected +
          v.estimateRollbackTrafficBytes rejected contextTokens
      metadataUpdates := v.stats.metadataUpdates + (if v.mode = .vskm then 2 else rejected)
      freeListReuses :=
        if v.mode ≠ .naive then v.stats.freeListReuses + 1 else v.stats.freeListReuses
      rollbackCycles := v.stats.rollbackCycles + cycles })

/-- `complete_verify`: returns the rollback cycles. -/
def completeVerify (v : VSKM) (requestId draftLength acceptedLength : Nat) : Nat × VSKM :=
  match v.requests[requestId]? with
  | none => (0, v)
  | some state =>
      let drafted := max draftLength state.draftedTokens
      let accepted := min acceptedLength drafted
      let rejected := drafted - accepted
      let v := { v with
        stats := { v.stats with
          acceptedTokens := v.stats.acceptedTokens + accepted
          versionTableLookups := v.stats.versionTableLookups + 1
          metadataUpdates := v.stats.metadataUpdates + 1 }
        currentSpeculativeKvBytes :=
          if state.activeRegionBytes ≤ v.currentSpeculativeKvBytes then
            v.currentSpeculativeKvBytes - state.activeRegionBytes
          else 0 }
      -- `commit_length` moves before the rollback context is formed
      let commitLength := state.commitLength + accepted
      let (cycles, stats) :=
        if rejected > 0 then v.chargeRollback rejected (commitLength + drafted) else (0, v.stats)
      (cycles,
        { v with
          stats := stats
          requests := v.requests.insert requestId
            { state with
              commitLength := commitLength
              draftedTokens := 0
              plannedTokens := 0
              activeRegionBytes := 0 } })

/-- `rejected_kv_write_ratio`. -/
def rejectedKvWriteRatio (v : VSKM) : ℚ :=
  if v.stats.totalKvWriteBytes = 0 then 0
  else (v.stats.rejectedKvWriteBytes : ℚ) / v.stats.totalKvWriteBytes

/-! ## 2. The committed lengths -/

/-- The committed length VSKM has of a request, and the drafts of its open round. -/
def versionOf (v : VSKM) (requestId : Nat) : Option (Nat × Nat) :=
  (v.requests[requestId]?).map fun state => (state.commitLength, state.draftedTokens)

section Versions

variable (v : VSKM) (requestId id : Nat)

theorem resetRequest_versionOf (length : Nat) :
    (v.resetRequest requestId length).versionOf id =
      if id = requestId then some (length, 0) else v.versionOf id := by
  unfold versionOf resetRequest
  rw [lookup_insert]
  split <;> rfl

theorem beginRound_versionOf (round length planned : Nat) :
    (v.beginRound requestId round length planned).versionOf id =
      if id = requestId then some (length, 0) else v.versionOf id := by
  unfold versionOf beginRound
  dsimp only
  rw [lookup_insert]
  split <;> rfl

theorem draftToken_versionOf {length drafted : Nat}
    (h : v.versionOf requestId = some (length, drafted)) :
    (v.draftToken requestId).versionOf requestId = some (length, drafted + 1) := by
  obtain ⟨state, hstate, hversion⟩ := Option.map_eq_some_iff.mp h
  cases hversion
  unfold versionOf draftToken requestState
  dsimp only
  rw [lookup_insert, hstate, if_pos rfl]
  rfl

theorem draftToken_versionOf_other (hne : id ≠ requestId) :
    (v.draftToken requestId).versionOf id = v.versionOf id := by
  unfold versionOf draftToken
  dsimp only
  rw [lookup_insert, if_neg hne]

@[simp] theorem preVerify_versionOf : (v.preVerify requestId).versionOf id = v.versionOf id := by
  unfold preVerify versionOf
  split <;> rfl

@[simp] theorem preVerify_acceptedTokens :
    (v.preVerify requestId).stats.acceptedTokens = v.stats.acceptedTokens := by
  unfold preVerify
  split <;> rfl

/-- **A verification commits what it accepts of the drafts**, and counts it. -/
theorem completeVerify_versionOf {length drafted : Nat}
    (h : v.versionOf requestId = some (length, drafted)) (k accepted : Nat) :
    (v.completeVerify requestId k accepted).2.versionOf requestId =
        some (length + min accepted (max k drafted), 0) ∧
      (v.completeVerify requestId k accepted).2.stats.acceptedTokens =
        v.stats.acceptedTokens + min accepted (max k drafted) := by
  obtain ⟨state, hstate, hversion⟩ := Option.map_eq_some_iff.mp h
  cases hversion
  unfold completeVerify versionOf
  rw [hstate]
  dsimp only
  rw [lookup_insert, if_pos rfl]
  refine ⟨rfl, ?_⟩
  split <;> rfl

theorem completeVerify_versionOf_other (k accepted : Nat) (hne : id ≠ requestId) :
    (v.completeVerify requestId k accepted).2.versionOf id = v.versionOf id := by
  unfold completeVerify versionOf
  split
  · rfl
  · dsimp only
    rw [lookup_insert, if_neg hne]

end Versions

/-! ## 3. The open regions -/

/-- The speculative bytes of a request. -/
def regionOf (v : VSKM) (requestId : Nat) : Nat :=
  ((v.requests[requestId]?).map RequestState.activeRegionBytes).getD 0

/-- The speculative bytes of all requests. -/
def regionBytes (v : VSKM) : Nat :=
  sumBy v.requests fun _ state => state.activeRegionBytes

/-- The counter of speculative bytes is the sum of the regions, and the peak is no lower. -/
structure Accounted (v : VSKM) : Prop where
  sum : v.currentSpeculativeKvBytes = v.regionBytes
  peak : v.currentSpeculativeKvBytes ≤ v.stats.peakSpeculativeKvBytes

/-- The second state is accounted for, and its peak is that of the first raised to its counter. -/
structure Follows (v v' : VSKM) : Prop where
  sum : v'.currentSpeculativeKvBytes = v'.regionBytes
  peak : v'.stats.peakSpeculativeKvBytes =
    max v.stats.peakSpeculativeKvBytes v'.currentSpeculativeKvBytes

theorem Accounted.refl {v : VSKM} (A : Accounted v) : Follows v v :=
  ⟨A.sum, (Nat.max_eq_left A.peak).symm⟩

theorem Follows.accounted {v v' : VSKM} (h : Follows v v') : Accounted v' :=
  ⟨h.sum, by rw [h.peak]; exact Nat.le_max_right _ _⟩

/-- An update that sets one entry exchanges its region. -/
theorem regionBytes_set {v w : VSKM} {requestId : Nat} {state : RequestState}
    (h : w.requests = v.requests.insert requestId state) :
    w.regionBytes + v.regionOf requestId = v.regionBytes + state.activeRegionBytes := by
  have hlookup : ∀ id : Nat, w.requests[id]? =
      if id = requestId then some state else v.requests[id]? := by
    intro id
    rw [h]
    exact lookup_insert v.requests requestId id state
  exact sumBy_set (fun _ (state : RequestState) => state.activeRegionBytes) rfl hlookup

theorem regionOf_set {v w : VSKM} {requestId : Nat} {state : RequestState}
    (h : w.requests = v.requests.insert requestId state) (id : Nat) :
    w.regionOf id = if id = requestId then state.activeRegionBytes else v.regionOf id := by
  unfold regionOf
  rw [h, lookup_insert]
  split <;> rfl

/-- No region is larger than all together. -/
theorem regionOf_le (v : VSKM) (requestId : Nat) : v.regionOf requestId ≤ v.regionBytes := by
  have h := regionBytes_set (v := v) (w := v.resetRequest requestId 0) rfl
  dsimp only at h
  omega

/-- A verification closes the region of its request. -/
theorem completeVerify_requests {v : VSKM} {requestId : Nat} {state : RequestState}
    (hstate : v.requests[requestId]? = some state) (k accepted : Nat) :
    ∃ state' : RequestState, state'.activeRegionBytes = 0 ∧
      (v.completeVerify requestId k accepted).2.requests = v.requests.insert requestId state' := by
  unfold completeVerify
  rw [hstate]
  exact ⟨_, rfl, rfl⟩

section Regions

variable {v : VSKM} (A : Accounted v) (requestId : Nat)

include A

/-- A reset forgets the region of the request: it has to be closed. -/
theorem Accounted.resetRequest (hclosed : v.regionOf requestId = 0) (length : Nat) :
    Follows v (v.resetRequest requestId length) := by
  have h := regionBytes_set (v := v) (w := v.resetRequest requestId length) rfl
  rw [hclosed] at h
  exact ⟨A.sum.trans h.symm, (Nat.max_eq_left A.peak).symm⟩

/-- So does the begin of a round. -/
theorem Accounted.beginRound (hclosed : v.regionOf requestId = 0) (round length planned : Nat) :
    Follows v (v.beginRound requestId round length planned) := by
  have h := regionBytes_set (v := v) (w := v.beginRound requestId round length planned) rfl
  rw [hclosed] at h
  exact ⟨A.sum.trans h.symm, (Nat.max_eq_left A.peak).symm⟩

/-- A draft opens its request's region further. -/
theorem Accounted.draftToken : Follows v (v.draftToken requestId) := by
  have h := regionBytes_set (v := v) (w := v.draftToken requestId) rfl
  have hregion : (v.requestState requestId).activeRegionBytes = v.regionOf requestId := by
    unfold requestState regionOf
    cases v.requests[requestId]? <;> rfl
  have hsum := A.sum
  dsimp only at h
  rw [hregion] at h
  refine ⟨?_, rfl⟩
  unfold VSKM.draftToken at h ⊢
  dsimp only at h ⊢
  omega

theorem Accounted.preVerify : Follows v (v.preVerify requestId) := by
  unfold VSKM.preVerify
  split
  · exact A.refl
  · exact ⟨A.sum, (Nat.max_eq_left A.peak).symm⟩

/-- **A verification takes the region of its request off the counter**, which does not fall
    short. -/
theorem Accounted.completeVerify (k accepted : Nat) :
    Follows v (v.completeVerify requestId k accepted).2 := by
  have hle := v.regionOf_le requestId
  have hsum := A.sum
  have hpeak := A.peak
  cases hstate : v.requests[requestId]? with
  | none =>
      unfold VSKM.completeVerify
      rw [hstate]
      exact A.refl
  | some state =>
      have hregion : v.regionOf requestId = state.activeRegionBytes := by
        unfold regionOf
        rw [hstate]
        rfl
      obtain ⟨state', hzero, hrequests⟩ := completeVerify_requests hstate k accepted
      have h := regionBytes_set hrequests
      have hcurrent : (v.completeVerify requestId k accepted).2.currentSpeculativeKvBytes =
          v.currentSpeculativeKvBytes - state.activeRegionBytes := by
        unfold VSKM.completeVerify
        rw [hstate]
        exact if_pos (by omega)
      have hsame : (v.completeVerify requestId k accepted).2.stats.peakSpeculativeKvBytes =
          v.stats.peakSpeculativeKvBytes := by
        unfold VSKM.completeVerify
        rw [hstate]
        dsimp only
        split <;> rfl
      exact ⟨by omega, by omega⟩

end Regions

section RegionOf

variable (v : VSKM) (requestId id : Nat)

theorem resetRequest_regionOf (length : Nat) : (v.resetRequest requestId length).regionOf id =
    if id = requestId then 0 else v.regionOf id :=
  regionOf_set (v := v) (w := v.resetRequest requestId length) rfl id

theorem beginRound_regionOf (round length planned : Nat) :
    (v.beginRound requestId round length planned).regionOf id =
      if id = requestId then 0 else v.regionOf id :=
  regionOf_set (v := v) (w := v.beginRound requestId round length planned) rfl id

theorem draftToken_regionOf_other (hne : id ≠ requestId) :
    (v.draftToken requestId).regionOf id = v.regionOf id :=
  (regionOf_set (v := v) (w := v.draftToken requestId) rfl id).trans (if_neg hne)

@[simp] theorem preVerify_regionOf : (v.preVerify requestId).regionOf id = v.regionOf id := by
  unfold preVerify regionOf
  split <;> rfl

theorem completeVerify_regionOf (k accepted : Nat) :
    (v.completeVerify requestId k accepted).2.regionOf id =
      if id = requestId then 0 else v.regionOf id := by
  cases hstate : v.requests[requestId]? with
  | none =>
      have hsame : (v.completeVerify requestId k accepted).2 = v := by
        unfold completeVerify
        rw [hstate]
      rw [hsame]
      split
      · next heq =>
          rw [heq]
          unfold regionOf
          rw [hstate]
          rfl
      · rfl
  | some state =>
      obtain ⟨state', hzero, hrequests⟩ := completeVerify_requests hstate k accepted
      rw [regionOf_set hrequests, hzero]

end RegionOf

/-! ## 4. The version ids -/

/-- The version id of a request. -/
def versionIdOf (v : VSKM) (requestId : Nat) : Option Nat :=
  (v.requests[requestId]?).map RequestState.versionId

/-- After how many rounds the version ids repeat: the entries, or the 32 bits of the counter. -/
def versionPeriod (entries : Nat) : Nat :=
  if entries < 2 ^ 32 - 1 then entries else 2 ^ 32

/-- The version id of a round that has `n` rounds begun before it. -/
def versionNumber (entries n : Nat) : Nat :=
  (n % versionPeriod entries + 1) % 2 ^ 32

theorem versionPeriod_pos {entries : Nat} (h : 1 ≤ entries) : 1 ≤ versionPeriod entries := by
  unfold versionPeriod
  split <;> omega

theorem versionPeriod_le (entries : Nat) : versionPeriod entries ≤ 2 ^ 32 := by
  unfold versionPeriod
  split <;> omega

/-- **Two rounds have one version id exactly when a multiple of the period lies between them.** -/
theorem versionNumber_inj {entries : Nat} (h : 1 ≤ entries) (n m : Nat) :
    versionNumber entries n = versionNumber entries m ↔
      n % versionPeriod entries = m % versionPeriod entries := by
  have hle := versionPeriod_le entries
  have hn := Nat.mod_lt n (versionPeriod_pos h)
  have hm := Nat.mod_lt m (versionPeriod_pos h)
  unfold versionNumber
  constructor
  · intro heq
    omega
  · intro heq
    rw [heq]

/-- The counter goes from one round's id to the next one's. -/
theorem versionNumber_succ {entries : Nat} (h : 1 ≤ entries) (n : Nat) :
    (if (versionNumber entries n + 1) % 2 ^ 32 > entries ∧ entries > 0 then 1
      else (versionNumber entries n + 1) % 2 ^ 32) = versionNumber entries (n + 1) := by
  have hlt := Nat.mod_lt n (versionPeriod_pos h)
  have hdiv := Nat.div_add_mod n (versionPeriod entries)
  have hcases : entries < 2 ^ 32 - 1 ∧ versionPeriod entries = entries ∨
      2 ^ 32 - 1 ≤ entries ∧ versionPeriod entries = 2 ^ 32 := by
    unfold versionPeriod
    split <;> omega
  unfold versionNumber
  by_cases hlast : n % versionPeriod entries + 1 = versionPeriod entries
  · -- the last id of the cycle
    have hzero : (n + 1) % versionPeriod entries = 0 := by
      have hmul : n + 1 = versionPeriod entries * (n / versionPeriod entries + 1) := by
        rw [Nat.mul_add]
        omega
      rw [hmul, Nat.mul_mod_right]
    rw [hzero]
    split <;> omega
  · have hnext : (n + 1) % versionPeriod entries = n % versionPeriod entries + 1 := by
      have hmul : n + 1 = versionPeriod entries * (n / versionPeriod entries) +
          (n % versionPeriod entries + 1) := by omega
      rw [hmul, Nat.mul_add_mod, Nat.mod_eq_of_lt (by omega)]
    rw [hnext]
    split <;> omega

section VersionId

variable (v : VSKM) (requestId id : Nat)

theorem resetRequest_versionIdOf_other (length : Nat) (hne : id ≠ requestId) :
    (v.resetRequest requestId length).versionIdOf id = v.versionIdOf id := by
  unfold versionIdOf resetRequest
  rw [lookup_insert, if_neg hne]

/-- A round takes the next version id. -/
theorem beginRound_versionIdOf (round length planned : Nat) :
    (v.beginRound requestId round length planned).versionIdOf id =
      if id = requestId then some v.nextVersionId else v.versionIdOf id := by
  unfold versionIdOf beginRound
  dsimp only
  rw [lookup_insert]
  split <;> rfl

theorem draftToken_versionIdOf {n : Nat} (h : v.versionIdOf id = some n) :
    (v.draftToken requestId).versionIdOf id = some n := by
  obtain ⟨state, hstate, rfl⟩ := Option.map_eq_some_iff.mp h
  unfold versionIdOf draftToken requestState
  dsimp only
  rw [lookup_insert]
  split
  · next heq =>
      rw [← heq, hstate]
      rfl
  · rw [hstate]
    rfl

@[simp] theorem preVerify_versionIdOf : (v.preVerify requestId).versionIdOf id = v.versionIdOf id := by
  unfold preVerify versionIdOf
  split <;> rfl

theorem completeVerify_versionIdOf (k accepted : Nat) :
    (v.completeVerify requestId k accepted).2.versionIdOf id = v.versionIdOf id := by
  unfold completeVerify versionIdOf
  cases hstate : v.requests[requestId]? with
  | none => rfl
  | some state =>
      dsimp only
      rw [lookup_insert]
      split
      · next heq =>
          rw [heq, hstate]
          rfl
      · rfl

end VersionId

end VSKM

end Ahasd
