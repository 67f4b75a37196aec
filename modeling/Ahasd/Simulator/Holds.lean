/-
  File:      Ahasd/Simulator/Holds.lean
  Subject:   PUSHES UNDER A HOLD. "Before this cycle any push to that channel will be held"
             (PIMBackend.h, of the completion cycle of a switch).

  The issue of a request asks the overlay, the hold queue does not: a parked request carries the
  deadline it was given when it was parked.

  * `KeepsHold`: the transfer respects the channel's deadline;
  * `exec_keeps`: an act breaks a hold if and only if it is a cycle that releases a parked request
    too early;
  * `Covered`: the parked deadlines cover the channel's; kept while deadlines are put off only for
    channels with nothing parked (`ExtendsSafely`);
  * `no_push_under_hold`: both, over the runs.
-/
import Ahasd.Simulator.Account
import Ahasd.Simulator.Turns

namespace Ahasd

open Transition Simulator

/-- The request does not enter the DRAM of a PIM channel before the cycle until which the channel is
    held. -/
def Transfer.KeepsHold (isPimChannel : Nat → Bool) (v : Transfer) : Prop :=
  ∀ m, isPimChannel m = true → v.dst = some (.dram m) → v.holdUntil ≤ v.npuCycle

namespace Simulator

variable {s s' : Simulator} {h : List Transfer}

/-! ## 1. Which acts break a hold -/

/-- The act is a cycle that finds a request parked at the front of a PIM channel's hold queue whose
    own deadline is over while the channel's is not, and DRAM takes it. -/
def ReleasesEarly (s : Simulator) : MemoryAct → Prop
  | .icntCycle bp => ∃ m < s.nMemories, s.isPimChannel m = true ∧
      ∃ e ∈ (s.channels m).pimHoldQueue.head?, e.1 ≤ s.coreCycles ∧
        s.coreCycles < s.pim.holdUntil m ∧ bp.holdDramFull m e.2 = false
  | _ => False

theorem isPimChannel_active {m : Nat} (h : s.isPimChannel m = true) : s.pim.active = true :=
  (Bool.and_eq_true_iff.mp h).1

/-- **A cycle breaks a hold if and only if it releases a request early.** -/
theorem cycle_keeps (bp : BackPressure) :
    (∀ v ∈ (runOps bp s.ops s).2, v.KeepsHold s.isPimChannel) ↔
      ¬ s.ReleasesEarly (.icntCycle bp) := by
  constructor
  · rintro hkeep ⟨m, hm, hpim, e, he, hdue, hheld, hfree⟩
    obtain ⟨t₀, hst, hch, _, htr⟩ := cycle_turn bp s hm
    obtain ⟨t, refilled, issued, back, hturn⟩ := turn_spec bp m t₀
    have hreleased : t₀.released (bp.holdDramFull m) m = some e.2 := by
      rw [released_congr hst hch]
      exact released_eq_some.mpr ⟨e, he, isPimChannel_active hpim, hdue, hfree, rfl⟩
    have hmem : t₀.releaseOf m e.2 ∈ (runOps bp s.ops s).2.filter fun v => v.memId = some m := by
      rw [htr, hturn.transfers, hreleased]
      simp
    have hle := hkeep _ (List.mem_filter.mp hmem).1 m hpim rfl
    have hle' : s.pim.holdUntil m ≤ s.coreCycles := by
      rw [← hst.holdUntil m, ← hst.coreCycles]
      exact hle
    omega
  · intro hno v hv m hpim hdst
    obtain ⟨x, t₀, t, refilled, issued, back, _, hlt, hst, hch, hmem, hturn⟩ :=
      cycle_turn_of hv hdst rfl
    obtain ⟨rfl, hinto⟩ := hturn.into_dram hmem hdst
    rcases hinto with ⟨front, hreleased, rfl⟩ | ⟨hfree, hnow, huntil⟩
    · rw [released_congr hst hch] at hreleased
      obtain ⟨e, he, _, hdue, hfull, _⟩ := released_eq_some.mp hreleased
      show t₀.pim.holdUntil m ≤ t₀.coreCycles
      rw [hst.holdUntil m, hst.coreCycles]
      by_contra hlt'
      exact hno ⟨m, hlt, hpim, e, he, hdue, Nat.not_le.mp hlt', hfull⟩
    · rw [hnow, huntil]
      exact hfree ((hst.isPimChannel m).trans hpim)

/-- Which acts break a hold. -/
theorem exec_keeps {a : MemoryAct} {r : Simulator × List Transfer} (hr : s.exec a = some r) :
    (∀ v ∈ r.2, v.KeepsHold s.isPimChannel) ↔ ¬ s.ReleasesEarly a := by
  by_cases ha : ∃ bp, a = .icntCycle bp
  · obtain ⟨bp, rfl⟩ := ha
    cases hr
    exact cycle_keeps bp
  · have hb := exec_between hr fun bp heq => ha ⟨bp, heq⟩
    constructor
    · intro _ hearly
      cases a with
      | icntCycle bp => exact ha ⟨bp, rfl⟩
      | _ => exact hearly
    · intro _ v hv m _ hdst
      have hout := (hb.transfers v hv).2
      rw [hdst] at hout
      cases hout

/-! ## 2. Parked deadlines that cover the channel's -/

/-- The act puts a PIM channel's deadline beyond now only if nothing is parked on the channel, and
    by less than 2^32 cycles. -/
def ExtendsSafely (s : Simulator) (a : MemoryAct) : Prop :=
  ∀ m, s.isPimChannel m = true → s.pim.holdUntil m < (s.pimAfter a).holdUntil m →
    s.coreCycles < (s.pimAfter a).holdUntil m →
      (s.channels m).pimHoldQueue = [] ∧ (s.pimAfter a).holdUntil m < s.coreCycles + 2 ^ 32

/-- The deadline of a PIM channel is near, and every request parked there carries it or it is
    over. -/
structure Covered (s : Simulator) : Prop where
  near : ∀ m, s.isPimChannel m = true → s.pim.holdUntil m < s.coreCycles + 2 ^ 32
  parked : ∀ m, s.isPimChannel m = true → ∀ e ∈ (s.channels m).pimHoldQueue,
    s.pim.holdUntil m ≤ max e.1 s.coreCycles

/-- With the deadlines covered nothing is released early. -/
theorem Covered.not_early (hc : Covered s) (a : MemoryAct) : ¬ s.ReleasesEarly a := by
  intro hearly
  cases a with
  | icntCycle bp =>
      obtain ⟨m, _, hpim, e, he, hdue, hheld, _⟩ := hearly
      have hle := hc.parked m hpim e (List.mem_of_mem_head? he)
      omega
  | _ => exact hearly

/-- What a cycle parks carries what is left of the channel's deadline. -/
theorem cycle_held (bp : BackPressure) (s : Simulator) {m : Nat} {e : Nat × MemoryAccess}
    (he : e ∈ ((runOps bp s.ops s).1.channels m).pimHoldQueue) :
    e ∈ (s.channels m).pimHoldQueue ∨
      e.1 = s.coreCycles + min (s.pim.holdUntil m - s.coreCycles) (2 ^ 32 - 1) := by
  by_cases hm : m < s.nMemories
  · obtain ⟨t₀, hst, hch, hafter, _⟩ := cycle_turn bp s hm
    obtain ⟨t, refilled, issued, back, hturn⟩ := turn_spec bp m t₀
    rw [hafter] at he
    have hdrop : ∀ x ∈ (t.channels m).pimHoldQueue, x ∈ (s.channels m).pimHoldQueue := by
      intro x hx
      rw [hturn.hold, hch] at hx
      exact List.mem_of_mem_drop hx
    have hst' := hst.trans hturn.steady
    have hissue := hturn.issue
    generalize hr : ((runOps bp (channelOps m) t₀).1, issued) = r at hissue
    cases hissue with
    | none _ hhold _ =>
        cases hr
        rw [hhold] at he
        exact .inl (hdrop e he)
    | @one _ _ _ landing _ _ hlands hhold _ =>
        cases hr
        rw [hhold] at he
        cases landing with
        | hold cycles =>
            rcases List.mem_append.mp he with he | he
            · exact .inl (hdrop e he)
            · right
              rw [List.mem_singleton.mp he, hlands.2.2, hst'.coreCycles, hst'.holdUntil]
        | _ => exact .inl (hdrop e he)
  · rw [(cycle_beyond bp s hm).1] at he
    exact .inl he

/-- **Acts that extend safely keep the deadlines covered.** -/
theorem exec_covered {a : MemoryAct} {r : Simulator × List Transfer} (hr : s.exec a = some r)
    (hsafe : s.ExtendsSafely a) (hc : Covered s) : Covered r.1 := by
  have hpim := exec_isPimChannel hr
  by_cases ha : ∃ bp, a = .icntCycle bp
  · obtain ⟨bp, rfl⟩ := ha
    cases hr
    have hst := runOps_steady bp s.ops s
    refine ⟨fun m hm => ?_, fun m hm e he => ?_⟩
    · rw [hst.holdUntil m, hst.coreCycles]
      exact hc.near m (hpim m ▸ hm)
    · rw [hst.holdUntil m, hst.coreCycles]
      have hnear := hc.near m (hpim m ▸ hm)
      rcases cycle_held bp s he with he | he
      · exact hc.parked m (hpim m ▸ hm) e he
      · omega
  · have hb := exec_between hr fun bp heq => ha ⟨bp, heq⟩
    have hclock := hb.coreCycles
    -- the deadline of a channel stays, or it is over, or nothing is parked there
    have hafter : ∀ m, r.1.isPimChannel m = true → r.1.pim.holdUntil m = s.pim.holdUntil m ∨
        r.1.pim.holdUntil m ≤ s.coreCycles ∨
        (s.channels m).pimHoldQueue = [] ∧ r.1.pim.holdUntil m < s.coreCycles + 2 ^ 32 := by
      intro m hm
      rw [hb.pim]
      by_cases hraise : s.pim.holdUntil m < (s.pimAfter a).holdUntil m
      · by_cases hfuture : s.coreCycles < (s.pimAfter a).holdUntil m
        · exact .inr (.inr (hsafe m (hpim m ▸ hm) hraise hfuture))
        · exact .inr (.inl (Nat.not_lt.mp hfuture))
      · have hle := (s.pimAfter_extends a).holdUntil m
        exact .inl (by omega)
    refine ⟨fun m hm => ?_, fun m hm e he => ?_⟩
    · have hnear := hc.near m (hpim m ▸ hm)
      rcases hafter m hm with heq | hle | ⟨_, hlt⟩ <;> omega
    · rw [hb.hold m] at he
      have hparked := hc.parked m (hpim m ▸ hm) e he
      rcases hafter m hm with heq | hle | ⟨hnil, _⟩
      · omega
      · omega
      · rw [hnil] at he
        cases he

/-- At the start nothing is parked and no channel is held. -/
theorem start_covered (c : MemorySetup) : Covered c.start := by
  have hzero : ∀ m, c.start.pim.holdUntil m = 0 := fun m => PIMBackend.new_holdUntil c.config m
  refine ⟨fun m _ => ?_, fun m _ e he => nomatch he⟩
  rw [hzero m]
  exact Nat.lt_add_left _ (by decide)

end Simulator

/-- The channels of a run that are PIM are those of its set-up. -/
theorem run_isPimChannel {c : MemorySetup} {s : Simulator} {h : List Transfer}
    (hr : Exec machine c.start s h) : s.isPimChannel = c.start.isPimChannel := by
  refine hr.invariantOn (P := fun s => s.isPimChannel = c.start.isPimChannel) rfl ?_
  intro t a t' ht hs
  obtain ⟨e, hexec, _⟩ := machine_step hs
  rw [← ht]
  exact funext fun m => exec_isPimChannel hexec m

/-- Deadlines that are only extended safely are kept. -/
theorem safe_run_keeps {c : MemorySetup} {as : List MemoryAct} {s : Simulator} {h : List Transfer}
    (hr : c.run as = some (s, h)) (hsafe : ∀ bs a, bs ++ [a] <+: as → ∀ t e,
      c.run bs = some (t, e) → t.ExtendsSafely a) :
    Covered s ∧ s.isPimChannel = c.start.isPimChannel ∧
      ∀ v ∈ h, v.KeepsHold c.start.isPimChannel := by
  refine Machine.run_along machine (C := Simulator.ExtendsSafely)
    (P := fun s h => Covered s ∧ s.isPimChannel = c.start.isPimChannel ∧
      ∀ v ∈ h, v.KeepsHold c.start.isPimChannel) ?_ ?_ hr hsafe
  · exact ⟨start_covered c, rfl, fun _ hv => nomatch hv⟩
  · rintro t h a t' ⟨hc, hpim, hkeep⟩ ha hs
    obtain ⟨e, hexec, hobs⟩ := machine_step hs
    have hnew := (exec_keeps hexec).mpr (hc.not_early a)
    rw [hpim] at hnew
    refine ⟨exec_covered hexec ha hc, ?_, fun v hv => ?_⟩
    · rw [← hpim]
      exact funext fun m => exec_isPimChannel hexec m
    · rw [hobs] at hv
      exact (List.mem_append.mp hv).elim (hkeep v) (hnew v)

/-- **No request enters the DRAM of a PIM channel under a hold, if and only if no cycle releases a
    parked request while its channel is still held**; and no cycle does if the deadline of a channel
    is put off only while nothing is parked there. -/
theorem no_push_under_hold {c : MemorySetup} {as : List MemoryAct} {s : Simulator}
    {h : List Transfer} (hr : c.run as = some (s, h)) :
    ((∀ v ∈ h, v.KeepsHold c.start.isPimChannel) ↔
      ∀ bs a, bs ++ [a] <+: as → ∀ t e, c.run bs = some (t, e) → ¬ t.ReleasesEarly a) ∧
    ((∀ bs a, bs ++ [a] <+: as → ∀ t e, c.run bs = some (t, e) → t.ExtendsSafely a) →
      ∀ v ∈ h, v.KeepsHold c.start.isPimChannel) := by
  refine ⟨?_, fun hsafe => (safe_run_keeps hr hsafe).2.2⟩
  refine Machine.run_shows machine (K := fun v => v.KeepsHold c.start.isPimChannel) ?_ hr
  intro t h a t' ht hs
  obtain ⟨e, hexec, hobs⟩ := machine_step hs
  rw [hobs, ← run_isPimChannel ht]
  exact exec_keeps hexec

/-- A request parked until cycle 2 and a second switch at cycle 1 that is done at cycle 3: the
    request enters DRAM at cycle 2. -/
theorem parked_request_enters_early : ∃ s h, memorySample.run (parking ++ [.coreCycle,
      .requestGtsuSwitch 0 0 1, .coreCycle, .icntCycle {}]) = some (s, h) ∧
    memorySample.start.isPimChannel 0 = true ∧
    (∃ v ∈ h, v.dst = some (.dram 0) ∧ v.npuCycle = 2 ∧ v.holdUntil = 3) ∧
    ¬ ∀ v ∈ h, v.KeepsHold memorySample.start.isPimChannel := by
  obtain ⟨⟨s, h⟩, hrun, hpushed⟩ := (Option.any_eq_true _ _).mp (show
    (memorySample.run (parking ++ [.coreCycle, .requestGtsuSwitch 0 0 1, .coreCycle,
      .icntCycle {}])).any (fun r => r.2.any fun v =>
        v.dst = some (.dram 0) && v.npuCycle = 2 && v.holdUntil = 3) = true by decide +kernel)
  have hpim : memorySample.start.isPimChannel 0 = true := by decide +kernel
  obtain ⟨v, hv, hend⟩ := List.any_eq_true.mp hpushed
  simp only [Bool.and_eq_true, decide_eq_true_eq] at hend
  obtain ⟨⟨hdst, hnow⟩, huntil⟩ := hend
  refine ⟨s, h, hrun, hpim, ⟨v, hv, hdst, hnow, huntil⟩, fun hkeep => ?_⟩
  have hle := hkeep v hv 0 hpim hdst
  omega

/-- A run that parks a request and releases it. -/
theorem no_push_under_hold_sample : ∃ s h,
    memorySample.run (parking ++ [.coreCycle, .coreCycle, .icntCycle {}]) = some (s, h) ∧
    (∃ v ∈ h, v.src = some (.hold 0)) ∧
    ((∀ v ∈ h, v.KeepsHold memorySample.start.isPimChannel) ↔
      ∀ bs a, bs ++ [a] <+: parking ++ [.coreCycle, .coreCycle, .icntCycle {}] → ∀ t e,
        memorySample.run bs = some (t, e) → ¬ t.ReleasesEarly a) := by
  obtain ⟨⟨s, h⟩, hrun, hreleased⟩ := (Option.any_eq_true _ _).mp (show
    (memorySample.run (parking ++ [.coreCycle, .coreCycle, .icntCycle {}])).any
      (fun r => r.2.any fun v => v.src = some (.hold 0)) = true by decide +kernel)
  obtain ⟨v, hv, hsrc⟩ := List.any_eq_true.mp hreleased
  exact ⟨s, h, hrun, ⟨v, hv, by simpa using hsrc⟩, (no_push_under_hold hrun).1⟩

end Ahasd
