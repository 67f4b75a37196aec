/-
  File:      Ahasd/SSRC.lean
  Subject:   THE SPECULATIVE STATE ROLLBACK CONTROL (SSRC.h).

  The coordinator of deferred draft rounds: which requests have a round deferred, how many bytes
  these rounds reserve, and the statistics. Byte counts are 64-bit and every sum or product the
  source may wrap is written with its wrap (`u64`).

  * `shouldDeferRound`, `onRoundVerified`, `noteBypassedWrite`: the operations;
  * `shouldDeferRound_active`, `onRoundVerified_active`: what they do to the active rounds;
  * `Books`: what the counters say of the active and the retired rounds; `Books.defer`,
    `Books.retire`: the operations keep the books, unless a reservation wraps (`Books.wraps`).
-/
import Mathlib.Data.Rat.Floor
import Ahasd.Lib.OrderedMap

namespace Ahasd

open Std OrderedMap

/-! ## 1. The coordinator -/

/-- A 64-bit unsigned value. -/
def u64 (n : Nat) : Nat := n % 2 ^ 64

/-- `SSRCConfig`. -/
structure SSRCConfig where
  enable : Bool := false
  confidenceThreshold : ℚ := 6
  stateBytesPerToken : Nat := 128
  residentLimitBytes : Nat := 4 * 1024 * 1024
  bypassNs : Nat := 10

/-- `SSRCCoordinator::Stats`. -/
structure SSRCStats where
  totalRoundDecisions : Nat := 0
  totalRoundsDeferred : Nat := 0
  totalRoundsRefused : Nat := 0
  totalRoundsCommitted : Nat := 0
  totalRoundsDiscarded : Nat := 0
  totalRoundsPartial : Nat := 0
  totalStateBytesSaved : Nat := 0
  totalStateBytesReplayed : Nat := 0
  totalBypassedWrites : Nat := 0
  totalBypassedWriteBytes : Nat := 0
  peakResidentBytes : Nat := 0
  deriving DecidableEq, Repr

/-- `SSRCCoordinator::RoundRecord`. -/
structure RoundRecord where
  specRound : Nat := 0
  plannedDraftLength : Nat := 0
  reservedBytes : Nat := 0
  deriving DecidableEq, Repr

/-- The state of the coordinator. -/
structure SSRCCoordinator where
  cfg : SSRCConfig
  activeRequests : TreeMap Nat RoundRecord := ∅
  residentBytes : Nat := 0
  stats : SSRCStats := {}

namespace SSRCCoordinator

/-- The constructor. -/
def new (cfg : SSRCConfig) : SSRCCoordinator where
  cfg := cfg

/-- `is_enabled`. -/
def isEnabled (c : SSRCCoordinator) : Bool := c.cfg.enable

/-- `should_defer_round`. (An exact rational entropy is always finite.) -/
def shouldDeferRound (c : SSRCCoordinator) (langRequestId specRound plannedDraftLength : Nat)
    (entropyHint : ℚ) : Bool × SSRCCoordinator :=
  if !c.cfg.enable then (false, c)
  else
    let c := { c with stats := { c.stats with
      totalRoundDecisions := c.stats.totalRoundDecisions + 1 } }
    if entropyHint ≤ c.cfg.confidenceThreshold then (false, c)
    else
      let bytes := u64 (plannedDraftLength * c.cfg.stateBytesPerToken)
      if u64 (c.residentBytes + bytes) > c.cfg.residentLimitBytes then
        (false, { c with stats := { c.stats with
          totalRoundsRefused := c.stats.totalRoundsRefused + 1 } })
      else
        let resident := u64 (c.residentBytes + bytes)
        (true,
          { c with
            activeRequests := c.activeRequests.insert langRequestId
              ⟨specRound, plannedDraftLength, bytes⟩
            residentBytes := resident
            stats := { c.stats with
              peakResidentBytes := max c.stats.peakResidentBytes resident
              totalRoundsDeferred := c.stats.totalRoundsDeferred + 1 } })

/-- `on_round_verified`. -/
def onRoundVerified (c : SSRCCoordinator)
    (langRequestId specRound acceptedLength roundDraftLength : Nat) : SSRCCoordinator :=
  if !c.cfg.enable then c
  else match c.activeRequests[langRequestId]? with
    | none => c
    | some rec =>
        if rec.specRound ≠ specRound then c
        else
          let reserved := rec.reservedBytes
          let k := max 1 roundDraftLength
          let acc := min acceptedLength k
          let replayed := u64 (reserved * acc) / k
          let saved := reserved - replayed
          let stats := { c.stats with
            totalStateBytesReplayed := c.stats.totalStateBytesReplayed + replayed
            totalStateBytesSaved := c.stats.totalStateBytesSaved + saved }
          let stats :=
            if acc = 0 then { stats with totalRoundsDiscarded := stats.totalRoundsDiscarded + 1 }
            else if acc = k then
              { stats with totalRoundsCommitted := stats.totalRoundsCommitted + 1 }
            else { stats with totalRoundsPartial := stats.totalRoundsPartial + 1 }
          { c with
            stats := stats
            residentBytes :=
              if c.residentBytes ≥ reserved then c.residentBytes - reserved else 0
            activeRequests := c.activeRequests.erase langRequestId }

/-- `is_active_request`. -/
def isActiveRequest (c : SSRCCoordinator) (langRequestId : Nat) : Bool :=
  c.cfg.enable && c.activeRequests.contains langRequestId

/-- `note_bypassed_write`. -/
def noteBypassedWrite (c : SSRCCoordinator) (langRequestId bytes : Nat) : SSRCCoordinator :=
  if c.isActiveRequest langRequestId then
    { c with stats := { c.stats with
      totalBypassedWrites := c.stats.totalBypassedWrites + 1
      totalBypassedWriteBytes := c.stats.totalBypassedWriteBytes + bytes } }
  else c

/-! ## 2. What the push path leaves alone -/

/-- The two coordinators agree on everything but the bypassed writes. -/
structure SameRounds (c c' : SSRCCoordinator) : Prop where
  cfg : c'.cfg = c.cfg
  active : c'.activeRequests = c.activeRequests
  resident : c'.residentBytes = c.residentBytes
  stats : ∃ writes bytes, c'.stats =
    { c.stats with totalBypassedWrites := writes, totalBypassedWriteBytes := bytes }

theorem SameRounds.refl (c : SSRCCoordinator) : SameRounds c c := ⟨rfl, rfl, rfl, _, _, rfl⟩

theorem noteBypassedWrite_sameRounds (c : SSRCCoordinator) (langRequestId bytes : Nat) :
    SameRounds c (c.noteBypassedWrite langRequestId bytes) := by
  unfold noteBypassedWrite
  split
  · exact ⟨rfl, rfl, rfl, _, _, rfl⟩
  · exact .refl c

/-! ## 3. The active rounds -/

/-- **A decision**: the round of the request becomes active, or the active rounds stay. -/
theorem shouldDeferRound_active (c : SSRCCoordinator)
    (langRequestId specRound plannedDraftLength : Nat) (entropyHint : ℚ) :
    let r := c.shouldDeferRound langRequestId specRound plannedDraftLength entropyHint
    r.2.cfg = c.cfg ∧
      (r.1 = true ∧ c.isEnabled = true ∧ r.2.activeRequests = c.activeRequests.insert langRequestId
          ⟨specRound, plannedDraftLength, u64 (plannedDraftLength * c.cfg.stateBytesPerToken)⟩ ∨
        r.1 = false ∧ r.2.activeRequests = c.activeRequests) := by
  unfold shouldDeferRound
  split
  · exact ⟨rfl, .inr ⟨rfl, rfl⟩⟩
  · next henabled =>
      dsimp only
      split
      · exact ⟨rfl, .inr ⟨rfl, rfl⟩⟩
      · split
        · exact ⟨rfl, .inr ⟨rfl, rfl⟩⟩
        · refine ⟨rfl, .inl ⟨rfl, ?_, rfl⟩⟩
          unfold isEnabled
          simpa using henabled

/-- **The verification of an active round** ends it. -/
theorem onRoundVerified_active {c : SSRCCoordinator} {langRequestId : Nat} {rec : RoundRecord}
    (hrec : c.activeRequests[langRequestId]? = some rec) (henabled : c.isEnabled = true)
    (accepted k : Nat) :
    (c.onRoundVerified langRequestId rec.specRound accepted k).cfg = c.cfg ∧
      (c.onRoundVerified langRequestId rec.specRound accepted k).activeRequests =
        c.activeRequests.erase langRequestId := by
  have hdisabled : ¬ (!c.cfg.enable) = true := by
    unfold isEnabled at henabled
    rw [henabled]
    decide
  unfold onRoundVerified
  rw [if_neg hdisabled, hrec]
  dsimp only
  rw [if_neg (not_not.mpr rfl)]
  exact ⟨rfl, rfl⟩

/-! ## 4. The books -/

/-- A deferred round that was verified: its record and the tokens the verification accepted. -/
structure Retirement where
  record : RoundRecord
  accepted : Nat
  deriving DecidableEq, Repr

/-- **The books of the coordinator**, for the rounds retired so far: the resident bytes are those of
    the active rounds and within the limit, every deferred round is settled or active, and the saved
    and replayed bytes are those of the retired rounds, the replayed ones per accepted token as long
    as the reserved bytes times the accepted tokens, both taken without a wrap, fit 64 bits. -/
structure Books (c : SSRCCoordinator) (retired : List Retirement) : Prop where
  resident : c.residentBytes = sumBy c.activeRequests fun _ rec => rec.reservedBytes
  limit : c.residentBytes ≤ c.cfg.residentLimitBytes
  rounds : c.stats.totalRoundsDeferred = c.stats.totalRoundsCommitted +
    c.stats.totalRoundsPartial + c.stats.totalRoundsDiscarded + c.activeRequests.size
  bytes : c.stats.totalStateBytesSaved + c.stats.totalStateBytesReplayed =
    (retired.map fun r => r.record.reservedBytes).sum
  replayed : (∀ r ∈ retired,
      r.record.plannedDraftLength * c.cfg.stateBytesPerToken * r.accepted < 2 ^ 64) →
    c.stats.totalStateBytesReplayed =
      c.cfg.stateBytesPerToken * (retired.map Retirement.accepted).sum

theorem Books.new (cfg : SSRCConfig) : Books (.new cfg) [] :=
  ⟨rfl, Nat.zero_le _, rfl, rfl, fun _ => rfl⟩

theorem Books.sameRounds {c c' : SSRCCoordinator} {retired : List Retirement} (B : Books c retired)
    (h : SameRounds c c') : Books c' retired := by
  obtain ⟨hcfg, hactive, hresident, writes, bytes, hstats⟩ := h
  refine ⟨?_, ?_, ?_, ?_, ?_⟩
  · rw [hresident, hactive]
    exact B.resident
  · rw [hresident, hcfg]
    exact B.limit
  · rw [hstats, hactive]
    exact B.rounds
  · rw [hstats]
    exact B.bytes
  · rw [hstats, hcfg]
    exact B.replayed

/-- The reservation of a round takes the resident bytes past 64 bits. -/
def ReservationWraps (c : SSRCCoordinator) (plannedDraftLength : Nat) (entropyHint : ℚ) : Prop :=
  c.isEnabled = true ∧ c.cfg.confidenceThreshold < entropyHint ∧
    2 ^ 64 ≤ c.residentBytes + u64 (plannedDraftLength * c.cfg.stateBytesPerToken)

instance (c : SSRCCoordinator) (plannedDraftLength : Nat) (entropyHint : ℚ) :
    Decidable (c.ReservationWraps plannedDraftLength entropyHint) :=
  inferInstanceAs (Decidable (_ ∧ _ ∧ _))

section Defer

variable {c : SSRCCoordinator} {retired : List Retirement} {langRequestId : Nat}
  {plannedDraftLength : Nat} {entropyHint : ℚ}

/-- **A decision keeps the books**, when its reservation does not wrap and the request has no active
    round. -/
theorem Books.defer (B : Books c retired) (hnew : c.activeRequests[langRequestId]? = none)
    (hfit : ¬ c.ReservationWraps plannedDraftLength entropyHint) (specRound : Nat) :
    Books (c.shouldDeferRound langRequestId specRound plannedDraftLength entropyHint).2 retired := by
  unfold shouldDeferRound
  split
  · exact B
  · next henabled =>
      dsimp only
      split
      · exact ⟨B.resident, B.limit, B.rounds, B.bytes, B.replayed⟩
      · next hhint =>
          split
          · exact ⟨B.resident, B.limit, B.rounds, B.bytes, B.replayed⟩
          · next hroom =>
              have hlt : c.residentBytes + u64 (plannedDraftLength * c.cfg.stateBytesPerToken) <
                  2 ^ 64 := by
                refine Nat.lt_of_not_le fun hge => hfit ⟨?_, lt_of_not_ge hhint, hge⟩
                unfold isEnabled
                simpa using henabled
              have hsum : u64 (c.residentBytes +
                  u64 (plannedDraftLength * c.cfg.stateBytesPerToken)) =
                  c.residentBytes + u64 (plannedDraftLength * c.cfg.stateBytesPerToken) :=
                Nat.mod_eq_of_lt hlt
              refine ⟨?_, Nat.le_of_not_lt hroom, ?_, B.bytes, B.replayed⟩
              · dsimp only
                rw [hsum, sumBy_insert_new _ _ hnew, B.resident, Nat.add_comm]
              · dsimp only
                rw [size_insert_new _ hnew, B.rounds]
                omega

/-- **A reservation that wraps breaks the books**: it is granted, since the wrapped sum is below the
    resident bytes, and the resident bytes are no longer the sum. -/
theorem Books.wraps (B : Books c retired) (hnew : c.activeRequests[langRequestId]? = none)
    (hwrap : c.ReservationWraps plannedDraftLength entropyHint) (specRound : Nat)
    (retired' : List Retirement) :
    ¬ Books (c.shouldDeferRound langRequestId specRound plannedDraftLength entropyHint).2
      retired' := by
  obtain ⟨henabled, hhint, hge⟩ := hwrap
  have hbytes : u64 (plannedDraftLength * c.cfg.stateBytesPerToken) < 2 ^ 64 :=
    Nat.mod_lt _ (by decide)
  have hlimit := B.limit
  have hsmall : u64 (c.residentBytes + u64 (plannedDraftLength * c.cfg.stateBytesPerToken)) <
      2 ^ 64 := Nat.mod_lt _ (by decide)
  have hgranted : ¬ u64 (c.residentBytes + u64 (plannedDraftLength * c.cfg.stateBytesPerToken)) >
      c.cfg.residentLimitBytes := by
    rcases Nat.lt_or_ge c.residentBytes (2 ^ 64) with hlt | hbig
    · have hmod : u64 (c.residentBytes + u64 (plannedDraftLength * c.cfg.stateBytesPerToken)) =
          c.residentBytes + u64 (plannedDraftLength * c.cfg.stateBytesPerToken) - 2 ^ 64 :=
        (Nat.mod_eq_sub_mod hge).trans (Nat.mod_eq_of_lt (by omega))
      omega
    · omega
  have hdisabled : ¬ (!c.cfg.enable) = true := by
    unfold isEnabled at henabled
    rw [henabled]
    decide
  unfold shouldDeferRound
  rw [if_neg hdisabled]
  dsimp only
  rw [if_neg hhint.not_ge, if_neg hgranted]
  intro B'
  have hresident := B'.resident
  dsimp only at hresident
  rw [sumBy_insert_new _ _ hnew, ← B.resident] at hresident
  dsimp only at hresident
  omega

end Defer

/-- The pro-rata share of the accepted tokens, when nothing wraps. -/
theorem replayed_share {planned bytesPerToken accepted : Nat} (hpos : 0 < planned)
    (hfit : planned * bytesPerToken * accepted < 2 ^ 64) :
    u64 (u64 (planned * bytesPerToken) * accepted) / planned = bytesPerToken * accepted := by
  rcases Nat.eq_zero_or_pos accepted with rfl | haccepted
  · simp [u64]
  · have hreserved : u64 (planned * bytesPerToken) = planned * bytesPerToken :=
      Nat.mod_eq_of_lt ((Nat.le_mul_of_pos_right _ haccepted).trans_lt hfit)
    rw [hreserved, u64, Nat.mod_eq_of_lt hfit, Nat.mul_assoc, Nat.mul_div_cancel_left _ hpos]

/-- The replayed bytes are at most the reserved ones. -/
theorem replayed_le (reserved : Nat) {accepted k : Nat} (h : accepted ≤ k) :
    u64 (reserved * accepted) / k ≤ reserved := by
  rcases Nat.eq_zero_or_pos k with rfl | hk
  · rw [Nat.div_zero]
    exact Nat.zero_le _
  · rw [Nat.div_le_iff_le_mul_add_pred hk]
    have hmod : u64 (reserved * accepted) ≤ reserved * accepted := Nat.mod_le _ _
    have hmul : reserved * accepted ≤ k * reserved := by
      rw [Nat.mul_comm k]
      exact Nat.mul_le_mul_left _ h
    omega

/-- What a verification does to the coordinator when the request has an active round: the round
    leaves, and is counted once. -/
theorem onRoundVerified_retires {c : SSRCCoordinator} {langRequestId : Nat} {rec : RoundRecord}
    (hrec : c.activeRequests[langRequestId]? = some rec) {accepted k : Nat}
    (henabled : c.isEnabled = true) (haccepted : accepted ≤ max 1 k)
    (hresident : rec.reservedBytes ≤ c.residentBytes) :
    ∃ committed partials discarded,
      committed + partials + discarded = c.stats.totalRoundsCommitted + c.stats.totalRoundsPartial +
        c.stats.totalRoundsDiscarded + 1 ∧
      c.onRoundVerified langRequestId rec.specRound accepted k =
        { c with
          activeRequests := c.activeRequests.erase langRequestId
          residentBytes := c.residentBytes - rec.reservedBytes
          stats := { c.stats with
            totalRoundsCommitted := committed
            totalRoundsPartial := partials
            totalRoundsDiscarded := discarded
            totalStateBytesReplayed := c.stats.totalStateBytesReplayed +
              u64 (rec.reservedBytes * accepted) / max 1 k
            totalStateBytesSaved := c.stats.totalStateBytesSaved +
              (rec.reservedBytes - u64 (rec.reservedBytes * accepted) / max 1 k) } } := by
  have hdisabled : ¬ (!c.cfg.enable) = true := by
    unfold isEnabled at henabled
    rw [henabled]
    decide
  have hmin : min accepted (max 1 k) = accepted := Nat.min_eq_left haccepted
  unfold onRoundVerified
  rw [if_neg hdisabled, hrec]
  dsimp only
  rw [if_neg (not_not.mpr rfl), hmin, if_pos hresident]
  split
  · exact ⟨_, _, _, by omega, rfl⟩
  · split
    · exact ⟨_, _, _, by omega, rfl⟩
    · exact ⟨_, _, _, by omega, rfl⟩

/-- **A retirement keeps the books**: the round leaves with its whole reservation, split into
    replayed and saved bytes. -/
theorem Books.retire {c : SSRCCoordinator} {retired : List Retirement} (B : Books c retired)
    {langRequestId : Nat} {rec : RoundRecord} (hrec : c.activeRequests[langRequestId]? = some rec)
    {accepted k : Nat} (henabled : c.isEnabled = true) (hk : max 1 k = rec.plannedDraftLength)
    (hreserved : rec.reservedBytes = u64 (rec.plannedDraftLength * c.cfg.stateBytesPerToken))
    (haccepted : accepted ≤ max 1 k) :
    Books (c.onRoundVerified langRequestId rec.specRound accepted k)
      (retired ++ [⟨rec, accepted⟩]) := by
  have herase := sumBy_erase (fun _ (rec : RoundRecord) => rec.reservedBytes) hrec
  have hshare := replayed_le rec.reservedBytes haccepted
  have hsize := size_erase_old hrec
  have hplanned : 0 < rec.plannedDraftLength := by omega
  have hresident := B.resident
  have hlimit := B.limit
  have hrounds := B.rounds
  have hbytes := B.bytes
  obtain ⟨committed, partials, discarded, hcount, heq⟩ :=
    onRoundVerified_retires hrec henabled haccepted (by omega)
  rw [heq]
  refine ⟨?_, ?_, ?_, ?_, fun hfits => ?_⟩
  · dsimp only
    omega
  · dsimp only
    omega
  · dsimp only
    omega
  · dsimp only
    rw [List.map_append, List.sum_append]
    simp only [List.map_cons, List.map_nil, List.sum_singleton]
    omega
  · dsimp only at hfits ⊢
    rw [B.replayed fun r hr => hfits r (List.mem_append_left _ hr), hk, hreserved,
      replayed_share hplanned (hfits ⟨rec, accepted⟩ (by simp)), List.map_append,
      List.sum_append, Nat.mul_add]
    simp

end SSRCCoordinator

end Ahasd
