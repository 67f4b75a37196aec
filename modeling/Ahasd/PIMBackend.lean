/-
  File:      Ahasd/PIMBackend.lean
  Subject:   THE PIM OVERLAY OF THE DRAM CHANNELS (PIMBackend.cc).

  Per channel: whether it is a PIM rank, which bank its rank mode selects (0 = DLM, 1 = TLM) and
  until which NPU cycle pushes to it are held. The SSRC coordinator is one object shared with the
  scheduler, so the call that consults it takes it as an argument and gives it back.

  * `requestGtsuSwitch`, `switchAllPimTo`: the rank-mode switch;
  * `scheduleHold`, `onDramPush`, `tryAauBypass`, `trySsrcBypass`: the simulator's push path;
  * `AllIn`: every PIM channel is in a given mode; `switchAllPimTo_allIn`: the switch of all
    channels brings this about; `SameRanks`: what the push path leaves alone;
  * `Extends`: the switches and holds only put off the deadlines;
  * `SameSetup`: nothing changes how the backend is configured; `NoService`: switches, holds and the
    clock concern no request.
-/
import Ahasd.Config
import Ahasd.SSRC

namespace Ahasd

/-- `MemoryAccess`, the fields the memory side reads. -/
structure MemoryAccess where
  id : Nat
  dramAddress : Nat
  size : Nat
  write : Bool
  request : Bool
  coreId : Nat
  requestId : Nat := 2 ^ 32 - 1
  requestIdentityTagged : Bool := false
  specTaskType : Nat := 0
  deriving DecidableEq, Repr

/-- `INVALID_REQUEST_ID`. -/
def invalidRequestId : Nat := 2 ^ 32 - 1

/-- `PIMBackend::Stats`. -/
structure PIMStats where
  totalPimRequests : Nat := 0
  totalPimReadRequests : Nat := 0
  totalPimWriteRequests : Nat := 0
  totalPimReadBytes : Nat := 0
  totalPimWriteBytes : Nat := 0
  totalAttentionClassRequests : Nat := 0
  totalAauFusedEvents : Nat := 0
  totalAauFusionSavedBytes : Nat := 0
  totalGtsuSwitches : Nat := 0
  totalGtsuStallNpuCycles : Nat := 0
  totalTvcHoldNpuCycles : Nat := 0
  totalSsrcBypassedRequests : Nat := 0
  totalSsrcBypassedBytes : Nat := 0
  ssrcTaggedWritesTotal : Nat := 0
  ssrcTaggedPimWritesSeen : Nat := 0
  ssrcRejectedInvalidId : Nat := 0
  ssrcRejectedNotActive : Nat := 0
  pimCycle : Nat := 0
  lastNpuCycle : Nat := 0
  deriving DecidableEq, Repr

/-- The state of the backend. -/
structure PIMBackend where
  config : SimulationConfig
  active : Bool := false
  isPim : List Bool := []
  perChannelHoldUntilNpu : List Nat := []
  rankModes : List Nat := []
  numPimChannels : Nat := 0
  npuToPimRatio : ℚ := 1
  gtsuSwitchNpuCycles : Nat := 0
  aauBypassNpuCycles : Nat := 0
  ssrcBypassNpuCycles : Nat := 0
  stats : PIMStats := {}

namespace PIMBackend

/-! ## 1. Construction -/

/-- `parse_channel_mask`: the listed channels, or every `stride`-th one. -/
def parseChannelMask (config : SimulationConfig) : List Bool :=
  match config.pimChannelMask with
  | some ids =>
      (List.range config.dramChannels).map fun cid => ids.any fun id => id % 2 ^ 32 == cid
  | none =>
      (List.range config.dramChannels).map fun cid => cid % max 1 config.pimChannelStride == 0

/-- A latency in ns as NPU cycles: `(ns * 1e-9) * (core_freq * 1e6)`, truncated. -/
def npuCyclesOfNs (config : SimulationConfig) (ns : Nat) : Nat :=
  ⌊(ns : ℚ) / 1000000000 * (config.coreFreq * 1000000)⌋₊

/-- The constructor. -/
def new (config : SimulationConfig) : PIMBackend :=
  if !config.pimEnable then { config := config }
  else
    let isPim := parseChannelMask config
    let base : PIMBackend :=
      { config := config
        isPim := isPim
        perChannelHoldUntilNpu := List.replicate config.dramChannels 0
        rankModes := List.replicate config.dramChannels 0
        numPimChannels := isPim.count true }
    if isPim.count true = 0 then base
    else
      let ssrcCycles := npuCyclesOfNs config config.ssrcBypassNs
      { base with
        active := true
        npuToPimRatio := max 1 (config.pimClockMhz : ℚ) / max 1 (config.coreFreq : ℚ)
        gtsuSwitchNpuCycles := max 1 (npuCyclesOfNs config config.pimGtsuSwitchNs)
        aauBypassNpuCycles := npuCyclesOfNs config config.pimAauBypassNs
        ssrcBypassNpuCycles :=
          if config.ssrcEnable ∧ ssrcCycles = 0 then 1 else ssrcCycles }

/-- `is_pim_channel`. -/
def isPimChannel (p : PIMBackend) (cid : Nat) : Bool :=
  p.isPim.getD cid false

/-- `rank_mode`. -/
def rankMode (p : PIMBackend) (cid : Nat) : Nat :=
  p.rankModes.getD cid 0

/-- The hold deadline of a channel. -/
def holdUntil (p : PIMBackend) (cid : Nat) : Nat :=
  p.perChannelHoldUntilNpu.getD cid 0

/-! ## 2. Switches and holds -/

/-- `request_gtsu_switch`: returns the cycle at which the switch is done. -/
def requestGtsuSwitch (p : PIMBackend) (cid newMode npuCycle : Nat) : Nat × PIMBackend :=
  if !p.active || !p.isPimChannel cid then (npuCycle, p)
  else if p.rankMode cid = newMode then (npuCycle, p)
  else
    let switchDone := npuCycle + p.gtsuSwitchNpuCycles
    (switchDone,
      { p with
        perChannelHoldUntilNpu :=
          if p.holdUntil cid < switchDone then p.perChannelHoldUntilNpu.set cid switchDone
          else p.perChannelHoldUntilNpu
        rankModes := p.rankModes.set cid newMode
        stats := { p.stats with totalGtsuSwitches := p.stats.totalGtsuSwitches + 1 } })

/-- The channel loop of `switch_all_pim_to`. -/
def switchLoop (newMode npuCycle : Nat) : List Nat → Nat × PIMBackend → Nat × PIMBackend
  | [], r => r
  | cid :: cids, (latest, p) =>
      if !p.isPimChannel cid then switchLoop newMode npuCycle cids (latest, p)
      else
        let (done, p) := p.requestGtsuSwitch cid newMode npuCycle
        switchLoop newMode npuCycle cids (if done > latest then done else latest, p)

/-- `switch_all_pim_to`: every PIM channel; returns the latest completion cycle. -/
def switchAllPimTo (p : PIMBackend) (newMode npuCycle : Nat) : Nat × PIMBackend :=
  if !p.active then (npuCycle, p)
  else switchLoop newMode npuCycle (List.range p.isPim.length) (npuCycle, p)

/-- What the switch of one channel keeps, the switch of all of them keeps. -/
theorem switchAllPimTo_of_request {P : PIMBackend → Prop} {newMode npuCycle : Nat}
    (hone : ∀ (q : PIMBackend) (cid : Nat), P q → P (q.requestGtsuSwitch cid newMode npuCycle).2)
    {p : PIMBackend} (h : P p) : P (p.switchAllPimTo newMode npuCycle).2 := by
  have hloop : ∀ (cids : List Nat) (r : Nat × PIMBackend), P r.2 →
      P (switchLoop newMode npuCycle cids r).2 := by
    intro cids
    induction cids with
    | nil => exact fun _ h => h
    | cons cid cids ih =>
        rintro ⟨latest, q⟩ h
        unfold switchLoop
        split
        · exact ih (latest, q) h
        · exact ih _ (hone q cid h)
  unfold switchAllPimTo
  split
  · exact h
  · exact hloop _ (npuCycle, p) h

/-- `schedule_hold`. -/
def scheduleHold (p : PIMBackend) (cid untilNpuCycle : Nat) : PIMBackend :=
  if !p.active || !p.isPimChannel cid then p
  else if p.holdUntil cid < untilNpuCycle then
    { p with
      perChannelHoldUntilNpu := p.perChannelHoldUntilNpu.set cid untilNpuCycle
      stats := { p.stats with
        totalTvcHoldNpuCycles :=
          p.stats.totalTvcHoldNpuCycles + (untilNpuCycle - p.holdUntil cid) } }
  else p

/-! ## 3. The push path -/

/-- The read/write counters of one request that reached a PIM channel. -/
def countRequest (s : PIMStats) (req : MemoryAccess) : PIMStats :=
  let s := { s with totalPimRequests := s.totalPimRequests + 1 }
  if req.write then
    { s with
      totalPimWriteRequests := s.totalPimWriteRequests + 1
      totalPimWriteBytes := s.totalPimWriteBytes + req.size }
  else
    { s with
      totalPimReadRequests := s.totalPimReadRequests + 1
      totalPimReadBytes := s.totalPimReadBytes + req.size }

/-- `on_dram_push`: the number of cycles the push is held for. -/
def onDramPush (p : PIMBackend) (cid : Nat) (req : MemoryAccess) (npuCycle : Nat) :
    Nat × PIMBackend :=
  if !p.active || !p.isPimChannel cid then (0, p)
  else
    let stats := countRequest p.stats req
    let stats :=
      if req.requestIdentityTagged then
        { stats with totalAttentionClassRequests := stats.totalAttentionClassRequests + 1 }
      else stats
    if p.holdUntil cid > npuCycle then
      let hold := p.holdUntil cid - npuCycle
      (min hold (2 ^ 32 - 1),
        { p with
          stats := { stats with totalGtsuStallNpuCycles := stats.totalGtsuStallNpuCycles + hold } })
    else (0, { p with stats := stats })

/-- `try_ssrc_bypass`, with the coordinator attached by `attach_ssrc`. -/
def trySsrcBypass (p : PIMBackend) (ssrc : SSRCCoordinator) (cid : Nat) (req : MemoryAccess) :
    Bool × PIMBackend × SSRCCoordinator :=
  if !p.active || !ssrc.isEnabled then (false, p, ssrc)
  else
    let stats := p.stats
    let stats :=
      if req.write && req.requestIdentityTagged then
        { stats with
          ssrcTaggedWritesTotal := stats.ssrcTaggedWritesTotal + 1
          ssrcTaggedPimWritesSeen :=
            if p.isPimChannel cid then stats.ssrcTaggedPimWritesSeen + 1
            else stats.ssrcTaggedPimWritesSeen }
      else stats
    let p := { p with stats := stats }
    if !p.isPimChannel cid then (false, p, ssrc)
    else if !req.write || !req.requestIdentityTagged then (false, p, ssrc)
    else if p.ssrcBypassNpuCycles = 0 then (false, p, ssrc)
    else if req.requestId = invalidRequestId then
      (false,
        { p with stats := { stats with
          ssrcRejectedInvalidId := stats.ssrcRejectedInvalidId + 1 } }, ssrc)
    else if !ssrc.isActiveRequest req.requestId then
      (false,
        { p with stats := { stats with
          ssrcRejectedNotActive := stats.ssrcRejectedNotActive + 1 } }, ssrc)
    else
      let counted := countRequest stats req
      (true,
        { p with stats := { counted with
          totalAttentionClassRequests := counted.totalAttentionClassRequests + 1
          totalSsrcBypassedRequests := counted.totalSsrcBypassedRequests + 1
          totalSsrcBypassedBytes := counted.totalSsrcBypassedBytes + req.size } },
        ssrc.noteBypassedWrite req.requestId req.size)

/-- `should_apply_aau_fusion`. -/
def shouldApplyAauFusion (p : PIMBackend) (req : MemoryAccess) : Bool :=
  p.config.pimEnableAauFusion && req.requestIdentityTagged

/-- `try_aau_bypass`. -/
def tryAauBypass (p : PIMBackend) (cid : Nat) (req : MemoryAccess) : Bool × PIMBackend :=
  if !p.active || !p.isPimChannel cid then (false, p)
  else if !p.shouldApplyAauFusion req then (false, p)
  else if p.aauBypassNpuCycles = 0 then (false, p)
  else
    let counted := countRequest p.stats req
    let saved := ⌊(req.size : ℚ) * p.config.pimAauFusionRatio⌋₊
    (true,
      { p with stats := { counted with
        totalAttentionClassRequests := counted.totalAttentionClassRequests + 1
        totalAauFusedEvents := counted.totalAauFusedEvents + 1
        totalAauFusionSavedBytes := counted.totalAauFusionSavedBytes + saved } })

/-- `cycle`: the PIM-domain clock. -/
def cycle (p : PIMBackend) (npuCycle : Nat) : PIMBackend :=
  if !p.active then p
  else
    { p with stats := { p.stats with
      lastNpuCycle := npuCycle
      pimCycle := ⌊(npuCycle : ℚ) * p.npuToPimRatio⌋₊ } }

/-! ## 4. Rank modes -/

/-- There is a rank mode for each channel. -/
def Sized (p : PIMBackend) : Prop :=
  p.rankModes.length = p.isPim.length

/-- Every PIM channel is in the mode. -/
def AllIn (p : PIMBackend) (mode : Nat) : Prop :=
  ∀ cid, p.isPimChannel cid = true → p.rankMode cid = mode

/-- The two backends agree on which channels are PIM and on their modes. -/
structure SameRanks (p p' : PIMBackend) : Prop where
  active : p'.active = p.active
  isPim : p'.isPim = p.isPim
  rankModes : p'.rankModes = p.rankModes

theorem SameRanks.refl (p : PIMBackend) : SameRanks p p := ⟨rfl, rfl, rfl⟩

theorem SameRanks.sized {p p' : PIMBackend} (h : SameRanks p p') (hs : p.Sized) : p'.Sized := by
  unfold Sized
  rw [h.isPim, h.rankModes]
  exact hs

theorem SameRanks.isPimChannel {p p' : PIMBackend} (h : SameRanks p p') (cid : Nat) :
    p'.isPimChannel cid = p.isPimChannel cid := by
  unfold PIMBackend.isPimChannel
  rw [h.isPim]

theorem SameRanks.rankMode {p p' : PIMBackend} (h : SameRanks p p') (cid : Nat) :
    p'.rankMode cid = p.rankMode cid := by
  unfold PIMBackend.rankMode
  rw [h.rankModes]

theorem SameRanks.allIn {p p' : PIMBackend} (h : SameRanks p p') (mode : Nat) :
    p'.AllIn mode ↔ p.AllIn mode := by
  unfold AllIn
  simp only [h.isPimChannel, h.rankMode]

theorem isPimChannel_lt {p : PIMBackend} {cid : Nat} (h : p.isPimChannel cid = true) :
    cid < p.isPim.length := by
  by_contra hge
  unfold isPimChannel at h
  rw [List.getD_eq_getElem?_getD, List.getElem?_eq_none (by omega)] at h
  cases h

theorem new_sized (config : SimulationConfig) : (new config).Sized := by
  unfold new Sized parseChannelMask
  split
  · rfl
  · cases config.pimChannelMask <;> dsimp only <;> split <;> simp

/-- A fresh backend is in the draft model's mode. -/
theorem new_allIn (config : SimulationConfig) : (new config).AllIn 0 := by
  intro cid _
  unfold new rankMode
  split
  · rfl
  · dsimp only
    split <;> (simp only [List.getD_eq_getElem?_getD, List.getElem?_replicate]; split <;> rfl)

section Push

variable (p : PIMBackend) (cid : Nat) (req : MemoryAccess)

theorem onDramPush_sameRanks (npuCycle : Nat) :
    SameRanks p (p.onDramPush cid req npuCycle).2 := by
  unfold onDramPush
  split
  · exact .refl p
  · dsimp only
    split <;> exact ⟨rfl, rfl, rfl⟩

theorem tryAauBypass_sameRanks : SameRanks p (p.tryAauBypass cid req).2 := by
  unfold tryAauBypass
  split_ifs <;> exact ⟨rfl, rfl, rfl⟩

theorem cycle_sameRanks (p : PIMBackend) (npuCycle : Nat) : SameRanks p (p.cycle npuCycle) := by
  unfold cycle
  split
  · exact .refl p
  · exact ⟨rfl, rfl, rfl⟩

/-- The bypass keeps the ranks and the coordinator's rounds. -/
theorem trySsrcBypass_frame (ssrc : SSRCCoordinator) :
    SameRanks p (p.trySsrcBypass ssrc cid req).2.1 ∧
      SSRCCoordinator.SameRounds ssrc (p.trySsrcBypass ssrc cid req).2.2 := by
  unfold trySsrcBypass
  dsimp only
  generalize (if (req.write && req.requestIdentityTagged) = true then _ else _ : PIMStats) = stats
  split
  · exact ⟨.refl p, .refl ssrc⟩
  · split
    · exact ⟨⟨rfl, rfl, rfl⟩, .refl ssrc⟩
    · split
      · exact ⟨⟨rfl, rfl, rfl⟩, .refl ssrc⟩
      · split
        · exact ⟨⟨rfl, rfl, rfl⟩, .refl ssrc⟩
        · split
          · exact ⟨⟨rfl, rfl, rfl⟩, .refl ssrc⟩
          · split
            · exact ⟨⟨rfl, rfl, rfl⟩, .refl ssrc⟩
            · exact ⟨⟨rfl, rfl, rfl⟩,
                ssrc.noteBypassedWrite_sameRounds req.requestId req.size⟩

/-- **The writes the bypass absorbs**: tagged ones on a PIM channel whose request has an active
    deferral. The task they come from is not looked at. -/
theorem trySsrcBypass_absorbs (ssrc : SSRCCoordinator) :
    (p.trySsrcBypass ssrc cid req).1 = true ↔
      p.active = true ∧ p.isPimChannel cid = true ∧ p.ssrcBypassNpuCycles ≠ 0 ∧
        (req.write = true ∧ req.requestIdentityTagged = true) ∧
        req.requestId ≠ invalidRequestId ∧ ssrc.isActiveRequest req.requestId = true := by
  have henabled : ssrc.isActiveRequest req.requestId = true → ssrc.isEnabled = true := by
    intro h
    unfold SSRCCoordinator.isActiveRequest at h
    exact (Bool.and_eq_true_iff.mp h).1
  have hchannel : ∀ stats, isPimChannel { p with stats := stats } cid = p.isPimChannel cid :=
    fun _ => rfl
  unfold trySsrcBypass
  dsimp only
  generalize (if (req.write && req.requestIdentityTagged) = true then _ else _ : PIMStats) = stats
  rw [hchannel]
  by_cases hon : p.active = true ∧ ssrc.isEnabled = true
  · rw [if_neg (by simp [hon.1, hon.2])]
    cases hc : p.isPimChannel cid with
    | false => simp
    | true =>
      rw [if_neg (by simp)]
      by_cases hkv : req.write = true ∧ req.requestIdentityTagged = true
      · rw [if_neg (by simp [hkv.1, hkv.2])]
        by_cases hcycles : p.ssrcBypassNpuCycles = 0
        · simp [hcycles]
        · rw [if_neg hcycles]
          by_cases hid : req.requestId = invalidRequestId
          · simp [hid]
          · rw [if_neg hid]
            cases hi : ssrc.isActiveRequest req.requestId with
            | false => simp
            | true => simp [hon.1, hkv, hcycles, hid]
      · rw [if_pos (by
          rw [← Bool.not_and, Bool.not_eq_true', Bool.and_eq_false_iff]
          revert hkv
          cases req.write <;> cases req.requestIdentityTagged <;> decide)]
        exact ⟨fun h => Bool.noConfusion h, fun h => (hkv h.2.2.2.1).elim⟩
  · rw [if_pos (by
      rw [← Bool.not_and, Bool.not_eq_true', Bool.and_eq_false_iff]
      revert hon
      cases p.active <;> cases ssrc.isEnabled <;> decide)]
    exact ⟨fun h => Bool.noConfusion h, fun h => (hon ⟨h.1, henabled h.2.2.2.2.2⟩).elim⟩

/-- The push path leaves the hold deadlines alone. -/
theorem onDramPush_holds (npuCycle : Nat) :
    (p.onDramPush cid req npuCycle).2.perChannelHoldUntilNpu = p.perChannelHoldUntilNpu := by
  unfold onDramPush
  split
  · rfl
  · dsimp only
    split <;> rfl

theorem tryAauBypass_holds :
    (p.tryAauBypass cid req).2.perChannelHoldUntilNpu = p.perChannelHoldUntilNpu := by
  unfold tryAauBypass
  split_ifs <;> rfl

theorem trySsrcBypass_holds (ssrc : SSRCCoordinator) :
    (p.trySsrcBypass ssrc cid req).2.1.perChannelHoldUntilNpu = p.perChannelHoldUntilNpu := by
  unfold trySsrcBypass
  dsimp only
  generalize (if (req.write && req.requestIdentityTagged) = true then _ else _ : PIMStats) = stats
  split_ifs <;> rfl

/-- **The hold of a push**: what is left of the channel's deadline, in 32 bits. -/
theorem onDramPush_hold (npuCycle : Nat) :
    (p.onDramPush cid req npuCycle).1 =
      if p.active = true ∧ p.isPimChannel cid = true ∧ npuCycle < p.holdUntil cid then
        min (p.holdUntil cid - npuCycle) (2 ^ 32 - 1)
      else 0 := by
  unfold onDramPush
  cases p.active with
  | false => simp
  | true =>
      cases p.isPimChannel cid with
      | false => simp
      | true =>
          simp only [Bool.not_true, Bool.or_self, Bool.false_eq_true, if_false, true_and]
          split <;> rfl

theorem tryAauBypass_channel (h : (p.tryAauBypass cid req).1 = true) :
    p.active = true ∧ p.isPimChannel cid = true := by
  unfold tryAauBypass at h
  cases ha : p.active with
  | false => simp [ha] at h
  | true =>
      cases hc : p.isPimChannel cid with
      | false => simp [hc] at h
      | true => exact ⟨rfl, rfl⟩

end Push

/-- The switch of one channel leaves which channels are PIM alone. -/
theorem requestGtsuSwitch_frame (p : PIMBackend) (cid newMode npuCycle : Nat) :
    (p.requestGtsuSwitch cid newMode npuCycle).2.active = p.active ∧
      (p.requestGtsuSwitch cid newMode npuCycle).2.isPim = p.isPim ∧
      (p.requestGtsuSwitch cid newMode npuCycle).2.rankModes.length = p.rankModes.length := by
  unfold requestGtsuSwitch
  split_ifs <;> simp

/-- The switch of one channel puts it, and only it, in the new mode. -/
theorem requestGtsuSwitch_rankMode {p : PIMBackend} (hs : p.Sized) (ha : p.active = true)
    {cid : Nat} (hc : p.isPimChannel cid = true) (newMode npuCycle cid' : Nat) :
    (p.requestGtsuSwitch cid newMode npuCycle).2.rankMode cid' =
      if cid' = cid then newMode else p.rankMode cid' := by
  have hlt : cid < p.rankModes.length := hs ▸ isPimChannel_lt hc
  unfold requestGtsuSwitch
  simp only [ha, hc, Bool.not_true, Bool.or_self, Bool.false_eq_true, if_false]
  by_cases hmode : p.rankMode cid = newMode
  · rw [if_pos hmode]
    split
    · next heq => rw [heq, hmode]
    · rfl
  · rw [if_neg hmode]
    show (p.rankModes.set cid newMode).getD cid' 0 = _
    by_cases heq : cid' = cid
    · subst heq
      simp [List.getD_eq_getElem?_getD, hlt]
    · have hne : cid ≠ cid' := fun h => heq h.symm
      simp [List.getD_eq_getElem?_getD, rankMode, heq, hne]

/-- **The channel loop of a switch**: exactly the PIM channels of the list change mode. -/
theorem switchLoop_spec (newMode npuCycle : Nat) (cids : List Nat) (r : Nat × PIMBackend)
    (hs : r.2.Sized) (ha : r.2.active = true) :
    (switchLoop newMode npuCycle cids r).2.active = true ∧
      (switchLoop newMode npuCycle cids r).2.isPim = r.2.isPim ∧
      (switchLoop newMode npuCycle cids r).2.Sized ∧
      ∀ cid, r.2.isPimChannel cid = true →
        (switchLoop newMode npuCycle cids r).2.rankMode cid =
          if cid ∈ cids then newMode else r.2.rankMode cid := by
  induction cids generalizing r with
  | nil => exact ⟨ha, rfl, hs, fun cid _ => by simp [switchLoop]⟩
  | cons c cids ih =>
      obtain ⟨latest, p⟩ := r
      unfold switchLoop
      cases hc : p.isPimChannel c with
      | false =>
          obtain ⟨h1, h2, h3, h4⟩ := ih (latest, p) hs ha
          refine ⟨h1, h2, h3, fun cid hcid => ?_⟩
          have hne : cid ≠ c := fun heq => by rw [heq, hc] at hcid; cases hcid
          rw [if_pos (by rfl), h4 cid hcid]
          simp [hne]
      | true =>
          obtain ⟨f1, f2, f3⟩ := p.requestGtsuSwitch_frame c newMode npuCycle
          generalize hstep : p.requestGtsuSwitch c newMode npuCycle = r' at f1 f2 f3
          obtain ⟨done, p'⟩ := r'
          have hmode := fun cid' => requestGtsuSwitch_rankMode hs ha hc newMode npuCycle cid'
          simp only [hstep] at hmode
          obtain ⟨h1, h2, h3, h4⟩ := ih (if done > latest then done else latest, p')
            (f3.trans (hs.trans (by rw [f2]))) (f1.trans ha)
          refine ⟨h1, h2.trans f2, h3, fun cid hcid => ?_⟩
          have hcid' : p'.isPimChannel cid = true := by
            unfold isPimChannel at hcid ⊢
            rw [f2]
            exact hcid
          simp only [Bool.not_true, Bool.false_eq_true, if_false]
          rw [h4 cid hcid', hmode cid]
          by_cases heq : cid = c <;> by_cases hmem : cid ∈ cids <;> simp [heq, hmem]

/-- **After a switch of all channels every PIM channel is in the new mode.** -/
theorem switchAllPimTo_allIn {p : PIMBackend} (hs : p.Sized) (ha : p.active = true)
    (newMode npuCycle : Nat) : (p.switchAllPimTo newMode npuCycle).2.AllIn newMode := by
  obtain ⟨_, h2, _, h4⟩ := switchLoop_spec newMode npuCycle (List.range p.isPim.length)
    (npuCycle, p) hs ha
  intro cid hcid
  unfold switchAllPimTo at hcid ⊢
  simp only [ha, Bool.not_true, Bool.false_eq_true, if_false] at hcid ⊢
  have hcid' : p.isPimChannel cid = true := by
    unfold isPimChannel at hcid ⊢
    rw [← h2]
    exact hcid
  rw [h4 cid hcid', if_pos (List.mem_range.mpr (isPimChannel_lt hcid'))]

theorem switchAllPimTo_frame {p : PIMBackend} (hs : p.Sized) (ha : p.active = true)
    (newMode npuCycle : Nat) :
    (p.switchAllPimTo newMode npuCycle).2.active = true ∧
      (p.switchAllPimTo newMode npuCycle).2.isPim = p.isPim ∧
      (p.switchAllPimTo newMode npuCycle).2.Sized := by
  obtain ⟨h1, h2, h3, _⟩ := switchLoop_spec newMode npuCycle (List.range p.isPim.length)
    (npuCycle, p) hs ha
  unfold switchAllPimTo
  rw [ha]
  exact ⟨h1, h2, h3⟩

/-! ## 5. Deadlines are only put off -/

/-- The same channels are PIM, and no hold deadline got earlier. -/
structure Extends (p p' : PIMBackend) : Prop where
  active : p'.active = p.active
  isPim : p'.isPim = p.isPim
  holdUntil : ∀ cid, p.holdUntil cid ≤ p'.holdUntil cid

theorem Extends.refl (p : PIMBackend) : Extends p p := ⟨rfl, rfl, fun _ => Nat.le_refl _⟩

theorem Extends.trans {p p' p'' : PIMBackend} (h : Extends p p') (h' : Extends p' p'') :
    Extends p p'' :=
  ⟨h'.active.trans h.active, h'.isPim.trans h.isPim,
    fun cid => (h.holdUntil cid).trans (h'.holdUntil cid)⟩

/-- A later deadline in the place of an earlier one. -/
theorem getD_set_le {l : List Nat} {i x : Nat} (hx : l.getD i 0 < x) (cid : Nat) :
    l.getD cid 0 ≤ (l.set i x).getD cid 0 := by
  simp only [List.getD_eq_getElem?_getD, List.getElem?_set] at hx ⊢
  by_cases heq : i = cid
  · subst heq
    rw [if_pos rfl]
    split
    · exact Nat.le_of_lt hx
    · next hlt => simp [List.getElem?_eq_none (Nat.not_lt.mp hlt)]
  · rw [if_neg heq]

theorem requestGtsuSwitch_extends (p : PIMBackend) (cid newMode npuCycle : Nat) :
    Extends p (p.requestGtsuSwitch cid newMode npuCycle).2 := by
  obtain ⟨ha, hp, _⟩ := p.requestGtsuSwitch_frame cid newMode npuCycle
  refine ⟨ha, hp, fun x => ?_⟩
  unfold requestGtsuSwitch
  split
  · exact Nat.le_refl _
  · split
    · exact Nat.le_refl _
    · show p.perChannelHoldUntilNpu.getD x 0 ≤ List.getD _ x 0
      by_cases h : p.holdUntil cid < npuCycle + p.gtsuSwitchNpuCycles
      · simp only [if_pos h]
        exact getD_set_le h x
      · simp only [if_neg h]
        exact Nat.le_refl _

theorem switchAllPimTo_extends (p : PIMBackend) (newMode npuCycle : Nat) :
    Extends p (p.switchAllPimTo newMode npuCycle).2 :=
  switchAllPimTo_of_request (P := Extends p)
    (fun q cid h => h.trans (q.requestGtsuSwitch_extends cid newMode npuCycle)) (.refl p)

theorem scheduleHold_extends (p : PIMBackend) (cid untilNpuCycle : Nat) :
    Extends p (p.scheduleHold cid untilNpuCycle) := by
  unfold scheduleHold
  split
  · exact .refl p
  · split
    · next h => exact ⟨rfl, rfl, getD_set_le h⟩
    · exact .refl p

theorem cycle_extends (p : PIMBackend) (npuCycle : Nat) :
    Extends p (p.cycle npuCycle) ∧ ∀ cid, (p.cycle npuCycle).holdUntil cid = p.holdUntil cid := by
  unfold cycle
  split
  · exact ⟨.refl p, fun _ => rfl⟩
  · exact ⟨⟨rfl, rfl, fun _ => Nat.le_refl _⟩, fun _ => rfl⟩

/-- No channel is held at the start. -/
theorem new_holdUntil (config : SimulationConfig) (cid : Nat) : (new config).holdUntil cid = 0 := by
  unfold new holdUntil
  split
  · rfl
  · have hzero : (List.replicate config.dramChannels 0).getD cid 0 = 0 := by
      rw [List.getD_eq_getElem?_getD, List.getElem?_replicate]
      split <;> rfl
    dsimp only
    split <;> exact hzero

/-! ## 6. What requests, switches and holds leave alone -/

/-- The two backends are configured alike, and answer from a bypass after the same number of
    cycles. -/
structure SameSetup (p p' : PIMBackend) : Prop where
  config : p'.config = p.config
  aau : p'.aauBypassNpuCycles = p.aauBypassNpuCycles
  ssrc : p'.ssrcBypassNpuCycles = p.ssrcBypassNpuCycles

theorem SameSetup.refl (p : PIMBackend) : SameSetup p p := ⟨rfl, rfl, rfl⟩

theorem SameSetup.trans {p p' p'' : PIMBackend} (h : SameSetup p p') (h' : SameSetup p' p'') :
    SameSetup p p'' :=
  ⟨h'.config.trans h.config, h'.aau.trans h.aau, h'.ssrc.trans h.ssrc⟩

section Push

variable (p : PIMBackend) (cid : Nat) (req : MemoryAccess)

theorem onDramPush_setup (npuCycle : Nat) : SameSetup p (p.onDramPush cid req npuCycle).2 := by
  unfold onDramPush
  split
  · exact .refl p
  · dsimp only
    split <;> exact ⟨rfl, rfl, rfl⟩

theorem tryAauBypass_setup : SameSetup p (p.tryAauBypass cid req).2 := by
  unfold tryAauBypass
  split_ifs <;> exact ⟨rfl, rfl, rfl⟩

theorem trySsrcBypass_setup (ssrc : SSRCCoordinator) :
    SameSetup p (p.trySsrcBypass ssrc cid req).2.1 := by
  unfold trySsrcBypass
  dsimp only
  generalize (if (req.write && req.requestIdentityTagged) = true then _ else _ : PIMStats) = stats
  split_ifs <;> exact ⟨rfl, rfl, rfl⟩

end Push

/-- The statistics of the requests alone: without those of the switches, the holds and the clock. -/
def requestStats (p : PIMBackend) : PIMStats :=
  { p.stats with
    totalGtsuSwitches := 0
    totalGtsuStallNpuCycles := 0
    totalTvcHoldNpuCycles := 0
    pimCycle := 0
    lastNpuCycle := 0 }

/-- No request is served. -/
structure NoService (p p' : PIMBackend) : Prop where
  setup : SameSetup p p'
  stats : p'.requestStats = p.requestStats

theorem NoService.refl (p : PIMBackend) : NoService p p := ⟨.refl p, rfl⟩

theorem NoService.trans {p p' p'' : PIMBackend} (h : NoService p p') (h' : NoService p' p'') :
    NoService p p'' :=
  ⟨h.setup.trans h'.setup, h'.stats.trans h.stats⟩

theorem requestGtsuSwitch_noService (p : PIMBackend) (cid newMode npuCycle : Nat) :
    NoService p (p.requestGtsuSwitch cid newMode npuCycle).2 := by
  unfold requestGtsuSwitch
  split
  · exact .refl p
  · split
    · exact .refl p
    · exact ⟨⟨rfl, rfl, rfl⟩, rfl⟩

theorem switchAllPimTo_noService (p : PIMBackend) (newMode npuCycle : Nat) :
    NoService p (p.switchAllPimTo newMode npuCycle).2 :=
  switchAllPimTo_of_request (P := NoService p)
    (fun q cid h => h.trans (q.requestGtsuSwitch_noService cid newMode npuCycle)) (.refl p)

theorem scheduleHold_noService (p : PIMBackend) (cid untilNpuCycle : Nat) :
    NoService p (p.scheduleHold cid untilNpuCycle) := by
  unfold scheduleHold
  split
  · exact .refl p
  · split
    · exact ⟨⟨rfl, rfl, rfl⟩, rfl⟩
    · exact .refl p

theorem cycle_noService (p : PIMBackend) (npuCycle : Nat) : NoService p (p.cycle npuCycle) := by
  unfold cycle
  split
  · exact .refl p
  · exact ⟨⟨rfl, rfl, rfl⟩, rfl⟩

end PIMBackend

end Ahasd
