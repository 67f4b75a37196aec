/-
  File:      Ahasd/Simulator/EnergyReport.lean
  Subject:   THE ENERGY OF A RUN (Simulator.cc, the end of `run_simulator`), and the credit for what
             AAU fused.

  The counters of the cores, of the PIM overlay and of the bus go into the energy model. The credit
  comes from `try_aau_bypass`: an event for each request it absorbs, and the saved share of its
  bytes.

  * `PIMFusion`, `Fuses`: the two counters, and what a part of a cycle adds to them; `run_fuses`:
    they are those of the requests absorbed in the run;
  * `energy`: the report; `fusedMj`: what of it is charged for the absorbed requests;
  * `saved_le_fusedMj`, `fusedMj_le`: the saved bytes cost no more than was charged, and that is
    part of the report;
  * **`aau_credit_covered_iff`**: exactly when the credit is covered.
-/
import Ahasd.EnergyModel
import Ahasd.Simulator.PIMTraffic
import Mathlib.Data.Rat.Floor

namespace Ahasd

open Transition TokenFlow Simulator EnergyModel

/-! ## 1. The fusion counters -/

/-- The counters of `try_aau_bypass`. -/
structure PIMFusion where
  events : Nat := 0
  savedBytes : Nat := 0
  deriving DecidableEq, Repr

def PIMStats.fusion (s : PIMStats) : PIMFusion where
  events := s.totalAauFusedEvents
  savedBytes := s.totalAauFusionSavedBytes

/-- The bytes a fused request saves. -/
def MemoryAccess.savedBytes (ratio : ℚ) (access : MemoryAccess) : Nat :=
  ⌊(access.size : ℚ) * ratio⌋₊

/-- What one fused request adds. -/
def PIMFusion.add (ratio : ℚ) (f : PIMFusion) (access : MemoryAccess) : PIMFusion where
  events := f.events + 1
  savedBytes := f.savedBytes + access.savedBytes ratio

theorem PIMFusion.foldl_add (ratio : ℚ) (l : List MemoryAccess) (f : PIMFusion) :
    l.foldl (add ratio) f =
      { events := f.events + l.length
        savedBytes := f.savedBytes + (l.map (MemoryAccess.savedBytes ratio)).sum } := by
  induction l generalizing f with
  | nil => rfl
  | cons access l ih =>
      rw [List.foldl_cons, ih]
      simp only [add, List.length_cons, List.map_cons, List.sum_cons, PIMFusion.mk.injEq]
      omega

namespace PIMBackend

/-- The fusion counters of the overlay. -/
def fusion (p : PIMBackend) : PIMFusion := p.stats.fusion

theorem NoService.fusion {p p' : PIMBackend} (h : NoService p p') : p'.fusion = p.fusion := by
  show p'.requestStats.fusion = p.requestStats.fusion
  rw [h.stats]

theorem countRequest_fusion (st : PIMStats) (req : MemoryAccess) :
    (countRequest st req).fusion = st.fusion := by
  unfold countRequest
  dsimp only
  split <;> rfl

variable (p : PIMBackend) (cid : Nat) (req : MemoryAccess)

/-- **The AAU bypass adds the request it absorbs.** -/
theorem tryAauBypass_fusion : (p.tryAauBypass cid req).2.fusion =
    if (p.tryAauBypass cid req).1 then p.fusion.add p.config.pimAauFusionRatio req
    else p.fusion := by
  unfold tryAauBypass
  split
  · rfl
  · split
    · rfl
    · split
      · rfl
      · show PIMFusion.mk _ _ = PIMFusion.add _ p.stats.fusion req
        rw [← countRequest_fusion p.stats req]
        rfl

/-- The other two calls add nothing. -/
theorem trySsrcBypass_fusion (ssrc : SSRCCoordinator) :
    (p.trySsrcBypass ssrc cid req).2.1.fusion = p.fusion := by
  have hsame : (if (req.write && req.requestIdentityTagged) = true then
      { p.stats with
        ssrcTaggedWritesTotal := p.stats.ssrcTaggedWritesTotal + 1
        ssrcTaggedPimWritesSeen :=
          if p.isPimChannel cid = true then p.stats.ssrcTaggedPimWritesSeen + 1
          else p.stats.ssrcTaggedPimWritesSeen }
      else p.stats).fusion = p.stats.fusion := by
    split <;> rfl
  unfold trySsrcBypass
  dsimp only
  generalize (if (req.write && req.requestIdentityTagged) = true then _ else _ : PIMStats) = stats
    at hsame ⊢
  split_ifs
  · rfl
  · exact hsame
  · exact hsame
  · exact hsame
  · exact hsame
  · exact hsame
  · exact (countRequest_fusion stats req).trans hsame

theorem onDramPush_fusion (npuCycle : Nat) :
    (p.onDramPush cid req npuCycle).2.fusion = p.fusion := by
  have htag : ∀ st : PIMStats, (if req.requestIdentityTagged then
      { st with totalAttentionClassRequests := st.totalAttentionClassRequests + 1 }
      else st).fusion = st.fusion := by
    intro st
    split <;> rfl
  unfold onDramPush
  split
  · rfl
  · dsimp only
    split <;> exact (htag _).trans (countRequest_fusion p.stats req)

theorem new_fusion (config : SimulationConfig) : (new config).fusion = {} := by
  unfold new
  split
  · rfl
  · dsimp only
    split <;> rfl

theorem new_config (config : SimulationConfig) : (new config).config = config := by
  unfold new
  split
  · rfl
  · dsimp only
    split <;> rfl

end PIMBackend

/-! ## 2. What a run fuses -/

/-- The place is an AAU bypass. -/
def Place.inAau : Place → Bool
  | aauBypass _ => true
  | _ => false

namespace Transfer

/-- AAU absorbs the request. -/
def fuses (v : Transfer) : Bool := v.accepts && v.dst.any Place.inAau

/-- AAU answers the request. -/
def answersFused (v : Transfer) : Bool := v.leaves && v.src.any Place.inAau

theorem fuses_accepts {v : Transfer} (hv : v.fuses = true) : v.accepts = true :=
  (Bool.and_eq_true_iff.mp hv).1

end Transfer

namespace Simulator

variable {s s' s'' : Simulator} {e e' h : List Transfer}

/-- The fusion counters after a landing. -/
def Landing.fusion (ratio : ℚ) (f : PIMFusion) (front : MemoryAccess) : Landing → PIMFusion
  | aauBypass => f.add ratio front
  | _ => f

/-- **A request on its way is fused if it lands in the AAU bypass.** -/
theorem route_fusion (m : Nat) (front : MemoryAccess) (s : Simulator) :
    (s.route m front).2.1.fusion =
      (s.route m front).1.fusion s.pim.config.pimAauFusionRatio s.pim.fusion front := by
  unfold route
  have hssrc : ∀ r : Bool × PIMBackend × SSRCCoordinator,
      (if (s.pim.active && s.ssrc.isEnabled) = true then s.pim.trySsrcBypass s.ssrc m front
        else (false, s.pim, s.ssrc)) = r →
      r.2.1.fusion = s.pim.fusion ∧ r.2.1.config = s.pim.config := by
    rintro r rfl
    split
    · exact ⟨s.pim.trySsrcBypass_fusion m front s.ssrc,
        (s.pim.trySsrcBypass_setup m front s.ssrc).config⟩
    · exact ⟨rfl, rfl⟩
  generalize hr : (if (s.pim.active && s.ssrc.isEnabled) = true then
    s.pim.trySsrcBypass s.ssrc m front else (false, s.pim, s.ssrc)) = r
  obtain ⟨hf, hconfig⟩ := hssrc r hr
  obtain ⟨ssrcBypassed, pim, ssrc⟩ := r
  dsimp only at hf hconfig ⊢
  cases ssrcBypassed with
  | true => exact hf
  | false =>
      rw [if_neg Bool.false_ne_true]
      cases s.pim.active with
      | false => exact hf
      | true =>
          simp only [if_true]
          have haau := pim.tryAauBypass_fusion m front
          rw [hf, hconfig] at haau
          generalize pim.tryAauBypass m front = r at haau
          obtain ⟨bypassed, pim'⟩ := r
          have hpush := pim'.onDramPush_fusion m front s.coreCycles
          generalize pim'.onDramPush m front s.coreCycles = r at hpush
          obtain ⟨hold, pim''⟩ := r
          dsimp only at haau hpush ⊢
          cases bypassed with
          | true => exact haau
          | false =>
              rw [if_neg Bool.false_ne_true]
              split <;> exact hpush.trans haau

/-- The counters move by the requests AAU absorbs, on PIM channels only. -/
structure Fuses (s : Simulator) (r : Simulator × List Transfer) : Prop where
  config : r.1.pim.config = s.pim.config
  channels : r.1.isPimChannel = s.isPimChannel
  fusion : r.1.pim.fusion = (requestsOf Transfer.fuses r.2).foldl
    (PIMFusion.add s.pim.config.pimAauFusionRatio) s.pim.fusion
  onPim : ∀ v ∈ r.2, v.fuses = true → v.issuesToPim s.isPimChannel = true

theorem Fuses.trans (h : Fuses s (s', e)) (h' : Fuses s' (s'', e')) : Fuses s (s'', e ++ e') := by
  have hconfig : s'.pim.config = s.pim.config := h.config
  have hchannels : s'.isPimChannel = s.isPimChannel := h.channels
  have hfusion : s'.pim.fusion = _ := h.fusion
  refine ⟨h'.config.trans hconfig, h'.channels.trans hchannels, ?_, fun v hv => ?_⟩
  · rw [h'.fusion, requestsOf_append, List.foldl_append, ← hfusion, hconfig]
  · rcases List.mem_append.mp hv with hv | hv
    · exact h.onPim v hv
    · rw [← hchannels]
      exact h'.onPim v hv

/-- What accepts nothing fuses nothing. -/
theorem Fuses.none {r : Simulator × List Transfer} (hconfig : r.1.pim.config = s.pim.config)
    (hch : r.1.isPimChannel = s.isPimChannel) (hf : r.1.pim.fusion = s.pim.fusion)
    (hno : ∀ v ∈ r.2, v.accepts = false) : Fuses s r := by
  have hfuses : ∀ v ∈ r.2, v.fuses = false := fun v hv => by
    rw [Transfer.fuses, hno v hv, Bool.false_and]
  refine ⟨hconfig, hch, ?_, fun v hv hfuse => ?_⟩
  · rw [requestsOf_none hfuses]
    exact hf
  · rw [hfuses v hv] at hfuse
    cases hfuse

theorem Unasked.fuses {r : Simulator × List Transfer} (h : Unasked s r) : Fuses s r :=
  .none (by rw [h.pim]) h.adds.channels (by rw [h.pim]) h.accepts

/-- **The issue adds the request it takes, if AAU absorbs it.** -/
theorem accept_fuses (m : Nat) (front : MemoryAccess) (index : Option Nat) :
    Fuses s (s.accept m front index) := by
  have hadds := accept_adds (s := s) m front index
  have hsetup := route_setup s m front (.refl s.pim)
  have hlands := (s.route_spec m front).lands
  have hfusion := s.route_fusion m front
  refine ⟨?_, hadds.channels, ?_, ?_⟩
  · rw [accept_pim]
    exact hsetup.config
  · rw [accept_pim, hfusion]
    unfold accept
    generalize s.route m front = r
    obtain ⟨landing, pim, ssrc⟩ := r
    cases index <;> cases landing <;> rfl
  · unfold accept
    generalize s.route m front = r at hlands
    obtain ⟨landing, pim, ssrc⟩ := r
    intro v hv hfuse
    obtain rfl := List.mem_singleton.mp hv
    rw [issuesToPim_accept s.isPimChannel m index landing rfl rfl]
    cases landing with
    | aauBypass => exact hlands
    | _ => cases index <;> cases hfuse

theorem op_fuses (bp : BackPressure) (o : Op) : Fuses s (s.op bp o) := by
  rcases op_asks (s := s) bp o with hno | ⟨t, m, front, index, hno, heq⟩
  · exact hno.fuses
  · rw [heq]
    exact hno.fuses.trans (e := []) (accept_fuses m front index)

theorem runOps_fuses (bp : BackPressure) (os : List Op) (s : Simulator) :
    Fuses s (runOps bp os s) :=
  runOps_of_op ⟨fun s => (Unasked.nothing s).fuses, .trans⟩ (fun _ o => op_fuses bp o) os s

/-- Every act adds what AAU absorbs. -/
theorem exec_fuses {a : MemoryAct} {r : Simulator × List Transfer} (hr : s.exec a = some r) :
    Fuses s r := by
  by_cases ha : ∃ bp, a = .icntCycle bp
  · obtain ⟨bp, rfl⟩ := ha
    cases hr
    exact runOps_fuses bp s.ops s
  · have hb := exec_between hr fun bp heq => ha ⟨bp, heq⟩
    have hno := s.pimAfter_noService a
    refine .none ?_ (funext fun m => exec_isPimChannel hr m) ?_ fun v hv => ?_
    · rw [hb.pim]
      exact hno.setup.config
    · rw [hb.pim]
      exact hno.fusion
    · rw [Transfer.accepts, (hb.transfers v hv).2, Bool.false_and]

end Simulator

/-- What a run adds. -/
theorem run_fuses {c : MemorySetup} {as : List MemoryAct} {s : Simulator} {h : List Transfer}
    (hr : c.run as = some (s, h)) : Fuses c.start (s, h) := by
  refine (exec_of_run hr).invariant (P := fun s h => Fuses c.start (s, h))
    (Unasked.nothing c.start).fuses ?_
  intro t h a t' ht hs
  obtain ⟨e, hexec, hobs⟩ := machine_step hs
  rw [hobs]
  exact ht.trans (exec_fuses hexec)

/-- **The fusion counters of a run** are those of the requests AAU absorbed in it. -/
theorem fusion_counts {c : MemorySetup} {as : List MemoryAct} {s : Simulator} {h : List Transfer}
    (hr : c.run as = some (s, h)) :
    s.pim.stats.totalAauFusedEvents = (requestsOf Transfer.fuses h).length ∧
      s.pim.stats.totalAauFusionSavedBytes = ((requestsOf Transfer.fuses h).map
        (MemoryAccess.savedBytes c.config.pimAauFusionRatio)).sum := by
  have hf := (run_fuses hr).fusion
  rw [show c.start.pim.fusion = {} from PIMBackend.new_fusion c.config,
    show c.start.pim.config = c.config from PIMBackend.new_config c.config,
    PIMFusion.foldl_add] at hf
  have hevents := congrArg PIMFusion.events hf
  have hsaved := congrArg PIMFusion.savedBytes hf
  simp only [Nat.zero_add] at hevents hsaved
  exact ⟨hevents, hsaved⟩

/-- Every transfer of a run is one of a request its core made. -/
theorem transfer_made {c : MemorySetup} {as : List MemoryAct} {s : Simulator} {h : List Transfer}
    (hr : c.run as = some (s, h)) : ∀ v ∈ h, v.access ∈ made h := fun _ hv =>
  (MemorySetup.account hr).flow.came_in.2 _ (List.mem_map_of_mem hv)

/-! ## 3. The report -/

/-- What a core reports at the end. -/
structure CoreReport where
  systolicActiveCycles : Nat := 0
  vecComputeCycles : Nat := 0
  idleCycles : Nat := 0
  memoryIdleCycles : Nat := 0

namespace Simulator

/-- `core_agg`. -/
def coreAggregate (s : Simulator) (report : Nat → CoreReport) : CoreAggregate :=
  (List.range s.nCores).foldl
    (fun agg coreId =>
      { agg with
        totSystolicActiveCycle := agg.totSystolicActiveCycle + (report coreId).systolicActiveCycles
        totVecComputeCycle := agg.totVecComputeCycle + (report coreId).vecComputeCycles
        totIdleCycle := agg.totIdleCycle + (report coreId).idleCycles
        totMemoryIdleCycle := agg.totMemoryIdleCycle + (report coreId).memoryIdleCycles })
    { numCores := s.nCores, coreCycle := s.coreCycles }

/-- `pim_agg`. -/
def pimAggregate (s : Simulator) : PIMAggregate :=
  if s.pim.active then
    { totalPimReadBytes := s.pim.stats.totalPimReadBytes
      totalPimWriteBytes := s.pim.stats.totalPimWriteBytes
      totalAauFusedEvents := s.pim.stats.totalAauFusedEvents
      totalAauFusionSavedBytes := s.pim.stats.totalAauFusionSavedBytes
      totalGtsuSwitches := s.pim.stats.totalGtsuSwitches
      pimCycle := s.pim.stats.pimCycle
      numPimChannels := s.pim.numPimChannels }
  else {}

/-- `bus_agg`: the payload of a request is `memoryReqSize` bytes, and the version manager's traffic
    goes over the bus as well. -/
def busAggregate (s : Simulator) (memoryReqSize specKvStateTrafficBytes : Nat) : BusAggregate where
  totalBytesNpuToMem := s.totNrToMem * memoryReqSize + specKvStateTrafficBytes
  totalBytesMemToNpu := s.totNrFromMem * memoryReqSize

/-- The energy of a run. -/
def energy (s : Simulator) (coeffs : EnergyCoeffs) (memoryReqSize : Nat)
    (report : Nat → CoreReport) (specKvStateTrafficBytes : Nat) : Breakdown :=
  compute coeffs (s.coreAggregate report) s.pimAggregate
    (s.busAggregate memoryReqSize specKvStateTrafficBytes)

end Simulator

/-! ## 4. What is charged for the fused requests -/

/-- The PIM access of a request, in pJ. -/
def MemoryAccess.pimPj (coeffs : EnergyCoeffs) (access : MemoryAccess) : ℚ :=
  access.size * if access.write then coeffs.pimWritePjPerByte else coeffs.pimReadPjPerByte

/-- What is charged for the requests AAU absorbed: their PIM accesses, and each time one of them or
    its answer crosses the bus. -/
def fusedMj (coeffs : EnergyCoeffs) (memoryReqSize : Nat) (h : List Transfer) : ℚ :=
  (((requestsOf Transfer.fuses h).map (MemoryAccess.pimPj coeffs)).sum +
    ((h.countP Transfer.fuses + h.countP Transfer.answersFused) * memoryReqSize : Nat) *
      coeffs.busPjPerByte) * kPJtoMJ

/-- The PIM accesses of requests are their read bytes and their written bytes at the two rates. -/
theorem sum_pimPj (coeffs : EnergyCoeffs) (l : List MemoryAccess) :
    (l.map (MemoryAccess.pimPj coeffs)).sum =
      ((l.filter fun access => !access.write).map MemoryAccess.size).sum *
          coeffs.pimReadPjPerByte +
        ((l.filter fun access => access.write).map MemoryAccess.size).sum *
          coeffs.pimWritePjPerByte := by
  induction l with
  | nil => simp
  | cons access l ih =>
      rw [List.map_cons, List.sum_cons, ih, MemoryAccess.pimPj]
      cases hw : access.write <;> simp [hw] <;> ring

/-- No request saves more bytes than it has. -/
theorem savedBytes_le {ratio : ℚ} (hratio : ratio ≤ 1) (access : MemoryAccess) :
    access.savedBytes ratio ≤ access.size := by
  refine Nat.floor_le_of_le ?_
  calc (access.size : ℚ) * ratio ≤ access.size * 1 :=
        mul_le_mul_of_nonneg_left hratio (Nat.cast_nonneg _)
    _ = access.size := mul_one _

/-- **The saved bytes of requests cost no more than their accesses and one crossing of the bus
    each.** -/
theorem saved_le_pimPj {coeffs : EnergyCoeffs} (hc : coeffs.NonNeg)
    (hwrite : coeffs.pimReadPjPerByte ≤ coeffs.pimWritePjPerByte) {ratio : ℚ} (hratio : ratio ≤ 1)
    {size : Nat} (l : List MemoryAccess) (hsize : ∀ access ∈ l, access.size = size) :
    ((l.map (MemoryAccess.savedBytes ratio)).sum : Nat) *
        (coeffs.pimReadPjPerByte + coeffs.busPjPerByte) ≤
      (l.map (MemoryAccess.pimPj coeffs)).sum + (l.length * size : Nat) * coeffs.busPjPerByte := by
  induction l with
  | nil => simp
  | cons access l ih =>
      have hrest := ih fun x hx => hsize x (List.mem_cons_of_mem _ hx)
      have hle : (access.savedBytes ratio : ℚ) ≤ access.size :=
        Nat.cast_le.mpr (savedBytes_le hratio access)
      have hread : (access.savedBytes ratio : ℚ) * coeffs.pimReadPjPerByte ≤
          access.pimPj coeffs := by
        unfold MemoryAccess.pimPj
        have hread := mul_le_mul_of_nonneg_right hle hc.pimRead
        split
        · exact hread.trans (mul_le_mul_of_nonneg_left hwrite (Nat.cast_nonneg _))
        · exact hread
      have hbus := mul_le_mul_of_nonneg_right hle hc.bus
      rw [hsize access List.mem_cons_self] at hbus
      simp only [List.map_cons, List.sum_cons, List.length_cons]
      push_cast at hrest ⊢
      linarith

section Charge

variable {c : MemorySetup} {as : List MemoryAct} {s : Simulator} {h : List Transfer}
  (hr : c.run as = some (s, h))
include hr

/-- What AAU absorbs is issued to a PIM channel. -/
theorem fused_sublist : (requestsOf Transfer.fuses h).Sublist
    (requestsOf (Transfer.issuesToPim c.start.isPimChannel) h) := by
  have hfilter : h.filter Transfer.fuses =
      (h.filter (Transfer.issuesToPim c.start.isPimChannel)).filter Transfer.fuses := by
    rw [List.filter_filter]
    refine List.filter_congr fun v hv => ?_
    cases hfuse : v.fuses with
    | false => rfl
    | true => rw [(run_fuses hr).onPim v hv hfuse, Bool.true_and]
  refine List.Sublist.map _ ?_
  rw [hfilter]
  exact List.filter_sublist

/-- With something absorbed the overlay is active. -/
theorem fused_active (hne : requestsOf Transfer.fuses h ≠ []) : s.pim.active = true := by
  obtain ⟨v, hv⟩ := List.exists_mem_of_ne_nil _ fun hnil =>
    hne (List.map_eq_nil_iff.mpr hnil)
  obtain ⟨hmem, hfuse⟩ := List.mem_filter.mp hv
  have hpim := (run_fuses hr).onPim v hmem hfuse
  have hany := (Bool.and_eq_true_iff.mp hpim).2
  obtain ⟨m, _, hm⟩ := (Option.any_eq_true _ _).mp hany
  rw [← show s.isPimChannel = c.start.isPimChannel from (run_fuses hr).channels] at hm
  exact (Bool.and_eq_true_iff.mp hm).1

/-- The report has the fusion counters of the run. -/
theorem pimAggregate_fusion :
    s.pimAggregate.totalAauFusedEvents = s.pim.stats.totalAauFusedEvents ∧
      s.pimAggregate.totalAauFusionSavedBytes = s.pim.stats.totalAauFusionSavedBytes := by
  obtain ⟨hevents, hsaved⟩ := fusion_counts hr
  unfold pimAggregate
  cases ha : s.pim.active with
  | true => exact ⟨rfl, rfl⟩
  | false =>
      have hnil : requestsOf Transfer.fuses h = [] := by
        by_contra hne
        rw [fused_active hr hne] at ha
        cases ha
      rw [hnil] at hevents hsaved
      exact ⟨hevents.symm, hsaved.symm⟩

/-- The PIM accesses of the requests AAU absorbed are part of those of the report. -/
theorem fused_pimPj_le {coeffs : EnergyCoeffs} (hc : coeffs.NonNeg) :
    ((requestsOf Transfer.fuses h).map (MemoryAccess.pimPj coeffs)).sum ≤
      s.pimAggregate.totalPimReadBytes * coeffs.pimReadPjPerByte +
        s.pimAggregate.totalPimWriteBytes * coeffs.pimWritePjPerByte := by
  have hreadCost := mul_nonneg
    (Nat.cast_nonneg (α := ℚ) s.pimAggregate.totalPimReadBytes) hc.pimRead
  have hwriteCost := mul_nonneg
    (Nat.cast_nonneg (α := ℚ) s.pimAggregate.totalPimWriteBytes) hc.pimWrite
  by_cases hne : requestsOf Transfer.fuses h = []
  · rw [hne, List.map_nil, List.sum_nil]
    exact add_nonneg hreadCost hwriteCost
  · have hactive : s.pimAggregate.totalPimReadBytes = s.pim.stats.totalPimReadBytes ∧
        s.pimAggregate.totalPimWriteBytes = s.pim.stats.totalPimWriteBytes := by
      unfold pimAggregate
      rw [if_pos (fused_active hr hne)]
      exact ⟨rfl, rfl⟩
    have hcounts := (pim_counts_once hr).2
    have hsub := fused_sublist hr
    -- the bytes of one direction
    have hbytes : ∀ p : MemoryAccess → Bool,
        (((requestsOf Transfer.fuses h).filter p).map MemoryAccess.size).sum ≤
          (((requestsOf (Transfer.issuesToPim c.start.isPimChannel) h).filter p).map
            MemoryAccess.size).sum := fun p =>
      ((hsub.filter p).map MemoryAccess.size).sum_le_sum fun _ _ => Nat.zero_le _
    have hread := hbytes fun access => !access.write
    have hwrite := hbytes fun access => access.write
    rw [← hcounts.readBytes] at hread
    rw [← hcounts.writeBytes] at hwrite
    rw [sum_pimPj, hactive.1, hactive.2]
    exact add_le_add (mul_le_mul_of_nonneg_right (Nat.cast_le.mpr hread) hc.pimRead)
      (mul_le_mul_of_nonneg_right (Nat.cast_le.mpr hwrite) hc.pimWrite)

/-- **What is charged for the requests AAU absorbed is part of the report.** -/
theorem fusedMj_le {coeffs : EnergyCoeffs} (hc : coeffs.NonNeg) (memoryReqSize : Nat)
    (report : Nat → CoreReport) (specKvStateTrafficBytes : Nat) :
    fusedMj coeffs memoryReqSize h ≤
      (s.energy coeffs memoryReqSize report specKvStateTrafficBytes).pimReadMj +
        (s.energy coeffs memoryReqSize report specKvStateTrafficBytes).pimWriteMj +
        (s.energy coeffs memoryReqSize report specKvStateTrafficBytes).busMj := by
  have hpim := fused_pimPj_le hr hc
  have hto : s.totNrToMem = 0 + h.countP Transfer.accepts + h.countP Transfer.releases :=
    (bus_counters hr).toMem
  have hfrom : s.totNrFromMem = 0 + h.countP Transfer.leaves := (bus_counters hr).fromMem
  have hin : h.countP Transfer.fuses ≤ s.totNrToMem := by
    have hle := List.countP_mono_left (l := h) fun v _ => Transfer.fuses_accepts (v := v)
    omega
  have hout : h.countP Transfer.answersFused ≤ s.totNrFromMem := by
    have hle := List.countP_mono_left (l := h) (p := Transfer.answersFused)
      (q := Transfer.leaves) fun v _ hv => (Bool.and_eq_true_iff.mp hv).1
    omega
  have hbytes : (h.countP Transfer.fuses + h.countP Transfer.answersFused) * memoryReqSize ≤
      s.totNrToMem * memoryReqSize + specKvStateTrafficBytes + s.totNrFromMem * memoryReqSize := by
    have hmul := Nat.mul_le_mul_right memoryReqSize (Nat.add_le_add hin hout)
    rw [Nat.add_mul s.totNrToMem] at hmul
    omega
  have hbus := mul_le_mul_of_nonneg_right (Nat.cast_le (α := ℚ) |>.mpr hbytes) hc.bus
  show (_ + _) * kPJtoMJ ≤ _ * kPJtoMJ + _ * kPJtoMJ + _ * kPJtoMJ
  rw [← add_mul, ← add_mul]
  exact mul_le_mul_of_nonneg_right (add_le_add hpim hbus) kPJtoMJ_pos.le

/-- **The saved bytes cost no more than what is charged for the requests AAU absorbed.** -/
theorem saved_le_fusedMj {coeffs : EnergyCoeffs} (hc : coeffs.NonNeg)
    (hwrite : coeffs.pimReadPjPerByte ≤ coeffs.pimWritePjPerByte)
    (hratio : c.config.pimAauFusionRatio ≤ 1) {memoryReqSize : Nat}
    (hsize : ∀ access ∈ made h, access.size = memoryReqSize) :
    (s.pim.stats.totalAauFusionSavedBytes : ℚ) *
        (coeffs.pimReadPjPerByte + coeffs.busPjPerByte) * kPJtoMJ ≤
      fusedMj coeffs memoryReqSize h := by
  have hsizes : ∀ access ∈ requestsOf Transfer.fuses h, access.size = memoryReqSize := by
    intro access hmem
    obtain ⟨v, hv, rfl⟩ := List.mem_map.mp hmem
    exact hsize _ (transfer_made hr v (List.mem_filter.mp hv).1)
  have hcost := saved_le_pimPj hc hwrite hratio (requestsOf Transfer.fuses h) hsizes
  rw [← (fusion_counts hr).2, requestsOf_length] at hcost
  -- the answers cross the bus as well
  have hmore : (h.countP Transfer.fuses * memoryReqSize : Nat) ≤
      (h.countP Transfer.fuses + h.countP Transfer.answersFused) * memoryReqSize :=
    Nat.mul_le_mul_right _ (Nat.le_add_right _ _)
  have hbus := mul_le_mul_of_nonneg_right (Nat.cast_le (α := ℚ) |>.mpr hmore) hc.bus
  refine mul_le_mul_of_nonneg_right (hcost.trans ?_) kPJtoMJ_pos.le
  linarith

end Charge

/-! ## 5. The credit -/

/-- **The AAU credit is covered**: it is at most what the saved bytes cost, and at most what is
    charged for the requests AAU absorbed, and the total takes no clamp. -/
structure CreditCovered (coeffs : EnergyCoeffs) (memoryReqSize : Nat) (s : Simulator)
    (h : List Transfer) (b : Breakdown) : Prop where
  bytes : b.aauSavingsMj ≤ s.pim.stats.totalAauFusionSavedBytes *
    (coeffs.pimReadPjPerByte + coeffs.busPjPerByte) * kPJtoMJ
  charged : b.aauSavingsMj ≤ fusedMj coeffs memoryReqSize h
  unclamped : 0 ≤ b.net

/-- Requests of one size that are absorbed save bytes if one of them does. -/
theorem saved_pos {c : MemorySetup} {as : List MemoryAct} {s : Simulator} {h : List Transfer}
    (hr : c.run as = some (s, h)) {memoryReqSize : Nat}
    (hsize : ∀ access ∈ made h, access.size = memoryReqSize) :
    0 < s.pim.stats.totalAauFusionSavedBytes ↔
      requestsOf Transfer.fuses h ≠ [] ∧
        1 ≤ (memoryReqSize : ℚ) * c.config.pimAauFusionRatio := by
  have hone : ∀ access ∈ requestsOf Transfer.fuses h,
      access.savedBytes c.config.pimAauFusionRatio =
        ⌊(memoryReqSize : ℚ) * c.config.pimAauFusionRatio⌋₊ := by
    intro access hmem
    obtain ⟨v, hv, rfl⟩ := List.mem_map.mp hmem
    rw [MemoryAccess.savedBytes, hsize _ (transfer_made hr v (List.mem_filter.mp hv).1)]
  rw [(fusion_counts hr).2, List.map_congr_left hone, List.map_const', List.sum_replicate_nat,
    ← List.length_pos_iff, ← Nat.floor_pos]
  exact ⟨fun hpos => ⟨Nat.pos_of_mul_pos_right hpos, Nat.pos_of_mul_pos_left hpos⟩,
    fun hboth => Nat.mul_pos hboth.1 hboth.2⟩

/-- **The AAU credit is covered if and only if a fused request saves at least a byte**, or nothing
    is fused, or an event earns no credit. -/
theorem aau_credit_covered_iff {c : MemorySetup} {as : List MemoryAct} {s : Simulator}
    {h : List Transfer} (hr : c.run as = some (s, h)) {coeffs : EnergyCoeffs}
    (hc : coeffs.NonNeg) (hwrite : coeffs.pimReadPjPerByte ≤ coeffs.pimWritePjPerByte)
    (hratio : 0 ≤ c.config.pimAauFusionRatio ∧ c.config.pimAauFusionRatio ≤ 1)
    {memoryReqSize : Nat} (hsize : ∀ access ∈ made h, access.size = memoryReqSize)
    (report : Nat → CoreReport) (specKvStateTrafficBytes : Nat) :
    CreditCovered coeffs memoryReqSize s h
        (s.energy coeffs memoryReqSize report specKvStateTrafficBytes) ↔
      1 ≤ (memoryReqSize : ℚ) * c.config.pimAauFusionRatio ∨ (∀ v ∈ h, v.fuses = false) ∨
        coeffs.aauFusionSavePjPerEvent = 0 := by
  obtain ⟨hevents, hsaved⟩ := pimAggregate_fusion hr
  have hnone : requestsOf Transfer.fuses h = [] ↔ ∀ v ∈ h, v.fuses = false := by
    unfold requestsOf
    rw [List.map_eq_nil_iff, List.filter_eq_nil_iff]
    simp
  -- the byte bound holds exactly when the cap applies or there is nothing to cap
  have hbytes : (s.energy coeffs memoryReqSize report specKvStateTrafficBytes).aauSavingsMj ≤ _ ↔ _ :=
    savings_le_bytes_iff hc
  rw [hevents, hsaved, (fusion_counts hr).1, List.length_eq_zero_iff, saved_pos hr hsize, hnone]
    at hbytes
  constructor
  · intro hcov
    rcases hbytes.mp hcov.bytes with hsave | hno | hzero
    · exact .inl hsave.2
    · exact .inr (.inl hno)
    · exact .inr (.inr hzero)
  · intro hcond
    have hle := hbytes.mpr (by
      rcases hcond with hsave | hno | hzero
      · by_cases hnil : requestsOf Transfer.fuses h = []
        · exact .inr (.inl (hnone.mp hnil))
        · exact .inl ⟨hnil, hsave⟩
      · exact .inr (.inl hno)
      · exact .inr (.inr hzero))
    have hcharged := hle.trans (saved_le_fusedMj hr hc hwrite hratio.2 hsize)
    exact ⟨hle, hcharged, net_nonneg hc
      (hcharged.trans (fusedMj_le hr hc memoryReqSize report specKvStateTrafficBytes))⟩

/-! ## 6. Closed runs -/

/-- The default coefficients. -/
theorem defaultCoeffs_nonNeg : EnergyCoeffs.NonNeg {} := by
  constructor <;> norm_num

/-- One channel whose tagged requests are fused. -/
def fusionSample (ratio : ℚ) : MemorySetup :=
  { memorySample with
    config :=
      { memorySample.config with
        pimEnableAauFusion := true
        pimAauFusionRatio := ratio } }

/-- A tagged write of 32 bytes is fused. -/
def fusing : List MemoryAct :=
  [.store 0 { sampleAccess with requestIdentityTagged := true }, .icntCycle {},
    .deliver (.memory 0) 0, .icntCycle {}]

/-- With a ratio of 0 a fused write saves nothing, the event is credited in full, and the total is
    clamped. -/
theorem fused_without_saving : ∃ s h, (fusionSample 0).run fusing = some (s, h) ∧
    EnergyCoeffs.NonNeg {} ∧ (∀ access ∈ made h, access.size = 32) ∧
    s.pim.stats.totalAauFusedEvents = 1 ∧ s.pim.stats.totalAauFusionSavedBytes = 0 ∧
    (s.energy {} 32 (fun _ => {}) 0).net < 0 ∧
    ¬ CreditCovered {} 32 s h (s.energy {} 32 (fun _ => {}) 0) := by
  obtain ⟨⟨s, h⟩, hrun, hend⟩ := (Option.any_eq_true _ _).mp (show
    ((fusionSample 0).run fusing).any (fun r =>
      (made r.2).all (fun access => access.size = 32) &&
        r.1.pim.stats.totalAauFusedEvents = 1 && r.1.pim.stats.totalAauFusionSavedBytes = 0 &&
        (r.1.energy {} 32 (fun _ => {}) 0).net < 0) = true by decide +kernel)
  simp only [Bool.and_eq_true, decide_eq_true_eq, List.all_eq_true] at hend
  obtain ⟨⟨⟨hsize, hevents⟩, hsaved⟩, hnet⟩ := hend
  exact ⟨s, h, hrun, defaultCoeffs_nonNeg, hsize, hevents, hsaved, hnet,
    fun hcov => absurd hcov.unclamped (not_le.mpr hnet)⟩

/-- With the default ratio the credit of the same write is covered. -/
theorem aau_credit_covered_sample : ∃ s h, (fusionSample (3 / 4)).run fusing = some (s, h) ∧
    s.pim.stats.totalAauFusedEvents = 1 ∧ s.pim.stats.totalAauFusionSavedBytes = 24 ∧
    (CreditCovered {} 32 s h (s.energy {} 32 (fun _ => {}) 0) ↔
      1 ≤ ((32 : Nat) : ℚ) * (fusionSample (3 / 4)).config.pimAauFusionRatio ∨
        (∀ v ∈ h, v.fuses = false) ∨
        ({} : EnergyCoeffs).aauFusionSavePjPerEvent = 0) := by
  obtain ⟨⟨s, h⟩, hrun, hend⟩ := (Option.any_eq_true _ _).mp (show
    ((fusionSample (3 / 4)).run fusing).any (fun r =>
      (made r.2).all (fun access => access.size = 32) &&
        r.1.pim.stats.totalAauFusedEvents = 1 &&
        r.1.pim.stats.totalAauFusionSavedBytes = 24) = true by decide +kernel)
  simp only [Bool.and_eq_true, decide_eq_true_eq, List.all_eq_true] at hend
  obtain ⟨⟨hsize, hevents⟩, hsaved⟩ := hend
  have hratio : (fusionSample (3 / 4)).config.pimAauFusionRatio = 3 / 4 := rfl
  exact ⟨s, h, hrun, hevents, hsaved,
    aau_credit_covered_iff hrun defaultCoeffs_nonNeg (by norm_num) (by rw [hratio]; norm_num) hsize
      (fun _ => {}) 0⟩

end Ahasd
