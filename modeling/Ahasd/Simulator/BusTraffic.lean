/-
  File:      Ahasd/Simulator/BusTraffic.lean
  Subject:   THE BUS COUNTERS of the energy model, against the requests the memory side took.

  `_tot_nr_to_mem` counts at four places of a cycle, `_tot_nr_from_mem` at three. A parked request
  passes two of the four: when it is put on hold and when it is released.

  * `Counted`: what a part of a cycle adds to the counters, by its transfers;
  * `bus_counters`: in every run the counters are the accepted requests and the releases, and the
    answers;
  * `bus_counts_once`: so each request is counted once if and only if no cycle released one.
-/
import Ahasd.Simulator.Conservation
import Ahasd.Simulator.Turns
import Mathlib.Data.Finset.Card

namespace Ahasd

open Transition TokenFlow Simulator

/-! ## 1. The memory side -/

/-- Where it is from then on until its core has the answer. -/
def Place.accepted (p : Place) : Bool := p.inMemory || p.response

namespace Transfer

/-- The memory side accepts the request. -/
def accepts (v : Transfer) : Bool := v.dst.any Place.inMemory && !v.src.any Place.inMemory

/-- The request leaves the memory side. -/
def leaves (v : Transfer) : Bool := v.src.any Place.inMemory && !v.dst.any Place.inMemory

/-- A parked request is released. -/
def releases (v : Transfer) : Bool := v.src.any fun p => match p with
  | .hold _ => true
  | _ => false

end Transfer

namespace Simulator

variable {s s' s'' : Simulator} {h : List Transfer}

/-- Nothing is left in the memory side. -/
def Drained (s : Simulator) : Prop := ∀ p, p.inMemory = true → s.contents p = []

/-- **Each request is counted once per direction**, and with the memory side drained the two
    counters agree. -/
structure BusCounted (s : Simulator) (h : List Transfer) : Prop where
  toMem : s.totNrToMem = (requestsOf Transfer.accepts h).toFinset.card
  fromMem : s.totNrFromMem = (requestsOf Transfer.leaves h).toFinset.card
  drained : s.Drained → s.totNrToMem = s.totNrFromMem

/-! ## 2. What the parts of a cycle count -/

/-- The counters move by the transfers. -/
structure Counted (s : Simulator) (r : Simulator × List Transfer) : Prop where
  toMem : r.1.totNrToMem =
    s.totNrToMem + r.2.countP Transfer.accepts + r.2.countP Transfer.releases
  fromMem : r.1.totNrFromMem = s.totNrFromMem + r.2.countP Transfer.leaves

/-- The counters stay. -/
structure SameTraffic (s s' : Simulator) : Prop where
  toMem : s'.totNrToMem = s.totNrToMem
  fromMem : s'.totNrFromMem = s.totNrFromMem

/-- The transfer is none of those that count. -/
def Uncounted (v : Transfer) : Prop :=
  v.accepts = false ∧ v.releases = false ∧ v.leaves = false

theorem Counted.uncounted {e : List Transfer} (hs : SameTraffic s s') (he : ∀ v ∈ e, Uncounted v) :
    Counted s (s', e) where
  toMem := by
    rw [hs.toMem, List.countP_eq_zero.mpr fun v hv => by simp [(he v hv).1],
      List.countP_eq_zero.mpr fun v hv => by simp [(he v hv).2.1], Nat.add_zero]
  fromMem := by
    rw [hs.fromMem, List.countP_eq_zero.mpr fun v hv => by simp [(he v hv).2.2], Nat.add_zero]

theorem Counted.quiet (hs : SameTraffic s s') : Counted s (s', []) :=
  .uncounted hs fun _ h => nomatch h

theorem Counted.one {v : Transfer} (hs : SameTraffic s s') (hv : Uncounted v) :
    Counted s (s', [v]) :=
  .uncounted hs fun w hw => by rwa [List.mem_singleton.mp hw]

theorem Counted.trans {e e' : List Transfer} (h : Counted s (s', e)) (h' : Counted s' (s'', e')) :
    Counted s (s'', e ++ e') where
  toMem := by
    have h₁ := h.toMem
    have h₂ := h'.toMem
    simp only [List.countP_append] at h₁ h₂ ⊢
    omega
  fromMem := by
    have h₁ := h.fromMem
    have h₂ := h'.fromMem
    simp only [List.countP_append] at h₁ h₂ ⊢
    omega

theorem SameTraffic.refl (s : Simulator) : SameTraffic s s := ⟨rfl, rfl⟩

theorem notePimCommandIssued_traffic (m : Nat) (s : Simulator) :
    SameTraffic s (s.notePimCommandIssued m) := by
  unfold notePimCommandIssued
  split <;> exact ⟨rfl, rfl⟩

theorem noteTlmReadIssueWindow_traffic (m : Nat) (selected : Option MemoryAccess) (s : Simulator) :
    SameTraffic s (s.noteTlmReadIssueWindow m selected) := by
  unfold noteTlmReadIssueWindow
  split
  · exact .refl s
  · split
    · exact .refl s
    · exact ⟨rfl, rfl⟩

theorem notePimCommandCandidate_traffic (m : Nat) (s : Simulator) :
    SameTraffic s (s.notePimCommandCandidate m) := by
  unfold notePimCommandCandidate
  dsimp only
  split <;> exact ⟨rfl, rfl⟩

theorem icntPush_traffic (access : MemoryAccess) (node : Node) (s : Simulator) :
    SameTraffic s (s.icntPush access node) := by
  cases node <;> exact ⟨rfl, rfl⟩

theorem drainHold_counted (full : MemoryAccess → Bool) (m : Nat) :
    Counted s (s.drainHold full m) := by
  unfold drainHold
  split
  · exact .quiet (.refl s)
  · next deadline front rest _ =>
      split
      · have hissued := notePimCommandIssued_traffic m (s.updateChannel m fun ch =>
          dramPush front { ch with pimHoldQueue := rest })
        exact ⟨congrArg (· + 1) hissued.toMem, hissued.fromMem⟩
      · exact .quiet (.refl s)

theorem Counted.composes : Composes Counted :=
  ⟨fun s => .quiet (.refl s), .trans⟩

theorem refill_counted (m : Nat) : Counted s (s.refill m) :=
  refill_of_moved Counted.composes (fun _ _ _ _ => .one ⟨rfl, rfl⟩ ⟨rfl, rfl, rfl⟩) s

theorem accept_counted (m : Nat) (front : MemoryAccess) (index : Option Nat) :
    Counted s (s.accept m front index) := by
  unfold accept
  generalize s.route m front = r
  obtain ⟨landing, pim, ssrc⟩ := r
  dsimp only
  have hissued := notePimCommandIssued_traffic m ({ s with pim := pim, ssrc := ssrc }.updateChannel m
    fun ch => takeIncoming index (s.land front ch landing))
  cases index <;> cases landing <;>
    first
      | exact ⟨congrArg (· + 1) hissued.toMem, hissued.fromMem⟩
      | exact ⟨rfl, rfl⟩

theorem issue_counted (full : MemoryAccess → Bool) (m : Nat) : Counted s (s.issue full m) := by
  unfold issue
  dsimp only
  have hnote := noteTlmReadIssueWindow_traffic m ((s.incoming full m).map Prod.fst) s
  generalize s.noteTlmReadIssueWindow m ((s.incoming full m).map Prod.fst) = t at hnote
  split
  · exact .quiet hnote
  · split
    · exact .quiet hnote
    · exact (Counted.quiet hnote).trans (e := []) (accept_counted m _ _)

/-- An answer counts once. -/
theorem sendBack_counted {m : Nat} {f : Channel → Channel} {p : Place}
    (hp : p = .aauBypass m ∨ p = .ssrcBypass m ∨ p = .dram m) (response : MemoryAccess) :
    Counted s ((s.updateChannel m f).sendBack p response) := by
  have hpush := icntPush_traffic response ((s.updateChannel m f).getDestNode response)
    (s.updateChannel m f)
  unfold sendBack
  rcases hp with rfl | rfl | rfl <;>
    (cases hd : (s.updateChannel m f).getDestNode response <;> rw [hd] at hpush <;>
      exact ⟨hpush.toMem, congrArg (· + 1) hpush.fromMem⟩)

theorem drainBypass_counted (full : MemoryAccess → Bool) (m : Nat) :
    Counted s (s.drainBypass full m) := by
  unfold drainBypass
  split
  · exact .quiet (.refl s)
  · split
    · exact sendBack_counted (.inl rfl) _
    · exact .quiet (.refl s)

theorem drainSsrcBypass_counted (full : MemoryAccess → Bool) (m : Nat) :
    Counted s (s.drainSsrcBypass full m) := by
  unfold drainSsrcBypass
  split
  · exact .quiet (.refl s)
  · split
    · exact sendBack_counted (.inr (.inl rfl)) _
    · exact .quiet (.refl s)

theorem dramResponse_counted (full : MemoryAccess → Bool) (m : Nat) :
    Counted s (s.dramResponse full m) := by
  unfold dramResponse
  split
  · exact .quiet (.refl s)
  · split
    · exact .quiet (.refl s)
    · exact sendBack_counted (.inr (.inr rfl)) _

theorem coreRequest_counted (full : MemoryAccess → Bool) (coreId : Nat) :
    Counted s (s.coreRequest full coreId) := by
  unfold coreRequest
  split
  · exact .quiet (.refl s)
  · dsimp only
    split
    · exact .quiet ⟨rfl, rfl⟩
    · cases hd : s.getDestNode _ <;> exact .one ⟨rfl, rfl⟩ ⟨rfl, rfl, rfl⟩

theorem coreResponse_counted (coreId : Nat) : Counted s (s.coreResponse coreId) := by
  unfold coreResponse
  split
  · exact .quiet (.refl s)
  · exact .one ⟨rfl, rfl⟩ ⟨rfl, rfl, rfl⟩

/-- **Every part of a cycle counts its transfers.** -/
theorem op_counted (bp : BackPressure) (o : Op) : Counted s (s.op bp o) := by
  cases o with
  | coreRequest coreId => exact coreRequest_counted _ coreId
  | coreResponse coreId => exact coreResponse_counted coreId
  | noteCandidate m => exact .quiet (notePimCommandCandidate_traffic m s)
  | drainHold m => exact drainHold_counted _ m
  | refill m => exact refill_counted m
  | issue m => exact issue_counted _ m
  | drainBypass m => exact drainBypass_counted _ m
  | drainSsrcBypass m => exact drainSsrcBypass_counted _ m
  | dramResponse m => exact dramResponse_counted _ m

theorem runOps_counted (bp : BackPressure) (os : List Op) : Counted s (runOps bp os s) :=
  runOps_of_op Counted.composes (fun _ o => op_counted bp o) os s

theorem releases_src {v : Transfer} (hv : v.releases = true) : ∃ m, v.src = some (.hold m) := by
  unfold Transfer.releases at hv
  cases hs : v.src with
  | none =>
      rw [hs] at hv
      cases hv
  | some p =>
      rw [hs] at hv
      cases p <;> first | exact ⟨_, rfl⟩ | exact Bool.noConfusion hv

/-- Between the cycles nothing counts. -/
theorem between_uncounted {a : MemoryAct} {r : Simulator × List Transfer} (hb : Between s a r) :
    SameTraffic s r.1 ∧ ∀ v ∈ r.2, Uncounted v := by
  refine ⟨⟨hb.toMem, hb.fromMem⟩, fun v hv => ?_⟩
  obtain ⟨hsrc, hdst⟩ := hb.transfers v hv
  refine ⟨by simp [Transfer.accepts, hdst], ?_, by simp [Transfer.leaves, hsrc]⟩
  cases hrel : v.releases with
  | false => rfl
  | true =>
      obtain ⟨m, hm⟩ := releases_src hrel
      rw [hm] at hsrc
      cases hsrc

/-- Every act counts its transfers. -/
theorem exec_counted {a : MemoryAct} {r : Simulator × List Transfer} (hr : s.exec a = some r) :
    Counted s r := by
  by_cases ha : ∃ bp, a = .icntCycle bp
  · obtain ⟨bp, rfl⟩ := ha
    cases hr
    exact runOps_counted bp s.ops
  · obtain ⟨hsame, hnone⟩ := between_uncounted (exec_between hr fun bp heq => ha ⟨bp, heq⟩)
    exact .uncounted hsame hnone

/-! ## 3. Which cycles release a parked request -/

/-- The act is a cycle that finds a request parked at the front of a hold queue, its deadline over,
    and DRAM takes it. -/
def Releases (s : Simulator) : MemoryAct → Prop
  | .icntCycle bp => ∃ m < s.nMemories, ∃ e ∈ (s.channels m).pimHoldQueue.head?,
      s.pim.active = true ∧ e.1 ≤ s.coreCycles ∧ bp.holdDramFull m e.2 = false
  | _ => False

/-- **A cycle releases a request if and only if it finds one that is due.** -/
theorem cycle_releases (bp : BackPressure) :
    (∃ v ∈ (runOps bp s.ops s).2, v.releases = true) ↔ s.Releases (.icntCycle bp) := by
  constructor
  · rintro ⟨v, hv, hrel⟩
    obtain ⟨m, hsrc⟩ := releases_src hrel
    obtain ⟨hm, t₀, hst, hch, hmem⟩ := cycle_transfer hv (m := m) (by
      simp [Transfer.memId, hsrc, Place.memId])
    obtain ⟨t, refilled, issued, back, hturn⟩ := turn_spec bp m t₀
    have hfree := hturn.only_release
    rw [hturn.transfers] at hmem
    simp only [List.append_assoc] at hmem hfree
    rcases List.mem_append.mp hmem with hmem | hmem
    · obtain ⟨front, hfront, _⟩ := List.mem_map.mp hmem
      have hreleased := Option.mem_toList.mp hfront
      rw [released_congr hst hch] at hreleased
      obtain ⟨e, he, hact, hdue, hfree, _⟩ := released_eq_some.mp hreleased
      exact ⟨m, hm, e, he, hact, hdue, hfree⟩
    · exact absurd hsrc (hfree v hmem)
  · rintro ⟨m, hm, e, he, hact, hdue, hfree⟩
    obtain ⟨t₀, hst, hch, _, htr⟩ := cycle_turn bp s hm
    obtain ⟨t, refilled, issued, back, hturn⟩ := turn_spec bp m t₀
    have hreleased : t₀.released (bp.holdDramFull m) m = some e.2 := by
      rw [released_congr hst hch]
      exact released_eq_some.mpr ⟨e, he, hact, hdue, hfree, rfl⟩
    have hmem : t₀.releaseOf m e.2 ∈ (runOps bp s.ops s).2.filter fun v => v.memId = some m := by
      rw [htr, hturn.transfers, hreleased]
      simp
    exact ⟨_, (List.mem_filter.mp hmem).1, rfl⟩

/-- Which steps release a request. -/
theorem exec_releases {a : MemoryAct} {r : Simulator × List Transfer} (hr : s.exec a = some r) :
    (∀ v ∈ r.2, v.releases = false) ↔ ¬ s.Releases a := by
  by_cases ha : ∃ bp, a = .icntCycle bp
  · obtain ⟨bp, rfl⟩ := ha
    cases hr
    rw [← cycle_releases bp]
    simp
  · have hnone := (between_uncounted (exec_between hr fun bp heq => ha ⟨bp, heq⟩)).2
    refine ⟨fun _ hrel => ?_, fun _ v hv => (hnone v hv).2.1⟩
    cases a with
    | icntCycle bp => exact ha ⟨bp, rfl⟩
    | _ => exact hrel

/-! ## 4. The counters of a run -/

theorem Place.closed_accepted : Closed Place.accepted where
  route p q hl hp := by
    cases p <;> cases q <;> first | rfl | exact Bool.noConfusion hl | exact Bool.noConfusion hp
  output _ := rfl

/-- What is accepted had not been before. -/
theorem accepts_entering {v : Transfer} (hv : v.Routed) (ha : v.accepts = true) :
    v.move.entering Place.accepted = true := by
  unfold Transfer.accepts at ha
  unfold Move.entering Transfer.move inside
  cases hd : v.dst with
  | none =>
      rw [hd] at ha
      cases ha
  | some q =>
      cases hs : v.src with
      | none =>
          have hq := hv.made hs
          rw [hq] at ha
          cases ha
      | some p =>
          have hl := hv.between p q hs hd
          rw [hd, hs] at ha
          cases p <;> cases q <;>
            first | rfl | exact Bool.noConfusion hl | exact Bool.noConfusion ha

/-- What leaves the memory side goes back to its core. -/
theorem leaves_entering {v : Transfer} (hv : v.Routed) (hl : v.leaves = true) :
    v.move.entering Place.response = true := by
  unfold Transfer.leaves at hl
  unfold Move.entering Transfer.move inside
  cases hs : v.src with
  | none =>
      rw [hs] at hl
      cases hl
  | some p =>
      cases hd : v.dst with
      | none =>
          have hp := hv.done hd
          rw [hp] at hl
          cases hl
      | some q =>
          have hlead := hv.between p q hs hd
          rw [hd, hs] at hl
          cases p <;> cases q <;>
            first | rfl | exact Bool.noConfusion hlead | exact Bool.noConfusion hl

theorem requestsOf_length (kind : Transfer → Bool) (h : List Transfer) :
    (requestsOf kind h).length = h.countP kind := by
  rw [requestsOf, List.length_map, List.countP_eq_length_filter]

section Account

variable (ha : Account s h)
include ha

/-- Accepted requests are distinct. -/
theorem Account.accepted_card :
    (requestsOf Transfer.accepts h).toFinset.card = h.countP Transfer.accepts := by
  rw [List.toFinset_card_of_nodup (List.nodup_iff_count_le_one.mpr
    (ha.once Place.closed_accepted fun _ => accepts_entering)), requestsOf_length]

theorem Account.left_card :
    (requestsOf Transfer.leaves h).toFinset.card = h.countP Transfer.leaves := by
  rw [List.toFinset_card_of_nodup (List.nodup_iff_count_le_one.mpr
    (ha.once closed_response fun _ => leaves_entering)), requestsOf_length]

/-- With the memory side drained, what it accepted has left it. -/
theorem Account.drained_count (hd : s.Drained) :
    h.countP Transfer.accepts = h.countP Transfer.leaves := by
  have hperm := ha.flow.crossings_perm (B := Place.inMemory) ha.distinct fun p hp access => by
    show ((s.contents p).map MemoryAccess.identity).count access = 0
    rw [hd p hp]
    rfl
  rw [enteringTokens_moves, leavingTokens_moves] at hperm
  have hlength := hperm.length_eq
  rwa [requestsOf_length, requestsOf_length] at hlength

end Account

end Simulator

/-- **The counters of a run**: the accepted requests and the releases, and the answers. -/
theorem bus_counters {c : MemorySetup} {as : List MemoryAct} {s : Simulator} {h : List Transfer}
    (hr : c.run as = some (s, h)) : Counted c.start (s, h) := by
  refine (exec_of_run hr).invariant (P := fun s h => Counted c.start (s, h))
    (.quiet (.refl _)) ?_
  intro t h a t' ht hs
  obtain ⟨e, hexec, hobs⟩ := machine_step hs
  rw [hobs]
  exact ht.trans (exec_counted hexec)

/-- A run releases what its cycles release. -/
theorem run_releases {c : MemorySetup} {as : List MemoryAct} {s : Simulator} {h : List Transfer}
    (hr : c.run as = some (s, h)) : (∀ v ∈ h, v.releases = false) ↔
      ∀ bs a, bs ++ [a] <+: as → ∀ t e, c.run bs = some (t, e) → ¬ t.Releases a := by
  refine Machine.run_shows machine (K := fun v => v.releases = false) ?_ hr
  intro t _ a t' _ hs
  obtain ⟨e, hexec, hobs⟩ := machine_step hs
  rw [hobs]
  exact exec_releases hexec

/-- **The bus counters count each request once per direction if and only if no cycle of the run
    releases a parked request.** A released request is counted twice on its way to memory: when it
    is parked and when it is released. -/
theorem bus_counts_once {c : MemorySetup} {as : List MemoryAct} {s : Simulator}
    {h : List Transfer} (hr : c.run as = some (s, h)) : BusCounted s h ↔
      ∀ bs a, bs ++ [a] <+: as → ∀ t e, c.run bs = some (t, e) → ¬ t.Releases a := by
  have ha := MemorySetup.account hr
  have hto : s.totNrToMem = 0 + h.countP Transfer.accepts + h.countP Transfer.releases :=
    (bus_counters hr).toMem
  have hfrom : s.totNrFromMem = 0 + h.countP Transfer.leaves := (bus_counters hr).fromMem
  rw [← run_releases hr]
  have hzero : h.countP Transfer.releases = 0 ↔ ∀ v ∈ h, v.releases = false := by
    rw [List.countP_eq_zero]
    simp
  rw [← hzero]
  constructor
  · intro hb
    have hcount := hb.toMem
    rw [ha.accepted_card] at hcount
    omega
  · intro hnone
    refine ⟨?_, ?_, fun hd => ?_⟩
    · rw [ha.accepted_card]
      omega
    · rw [ha.left_card]
      omega
    · have heq := ha.drained_count hd
      omega

/-- A switch, and one request that is parked until it is over: it is counted twice, and with nothing
    left in the channel two requests went to memory and one came back. -/
theorem parked_counts_twice : ∃ s h, memorySample.run [.requestGtsuSwitch 0 1 0, .store 0 sampleAccess,
      .icntCycle {}, .deliver (.memory 0) 0, .icntCycle {}, .coreCycle, .coreCycle, .icntCycle {},
      .answer 0 0, .icntCycle {}] = some (s, h) ∧
    s.totNrToMem = 2 ∧ s.totNrFromMem = 1 ∧ s.channels 0 = {} ∧ ¬ BusCounted s h := by
  obtain ⟨⟨s, h⟩, hrun, hend⟩ := (Option.any_eq_true _ _).mp (show
    (memorySample.run [.requestGtsuSwitch 0 1 0, .store 0 sampleAccess, .icntCycle {},
      .deliver (.memory 0) 0, .icntCycle {}, .coreCycle, .coreCycle, .icntCycle {}, .answer 0 0,
      .icntCycle {}]).any (fun r => r.1.totNrToMem = 2 && r.1.totNrFromMem = 1 &&
        r.1.channels 0 = {} && (requestsOf Transfer.accepts r.2).toFinset.card = 1) = true by
    decide +kernel)
  simp only [Bool.and_eq_true, decide_eq_true_eq] at hend
  obtain ⟨⟨⟨hto, hfrom⟩, hempty⟩, hone⟩ := hend
  refine ⟨s, h, hrun, hto, hfrom, hempty, fun hb => ?_⟩
  have hcount := hb.toMem
  rw [hto, hone] at hcount
  cases hcount

/-- A run that parks a request and does not release it. -/
theorem bus_counts_once_sample : ∃ s h, memorySample.run parking = some (s, h) ∧
    s.contents (.hold 0) ≠ [] ∧ (BusCounted s h ↔
      ∀ bs a, bs ++ [a] <+: parking → ∀ t e, memorySample.run bs = some (t, e) →
        ¬ t.Releases a) := by
  obtain ⟨⟨s, h⟩, hrun, hhold⟩ := (Option.any_eq_true _ _).mp (show
    (memorySample.run parking).any (fun r => !(r.1.contents (.hold 0)).isEmpty) = true by
    decide +kernel)
  exact ⟨s, h, hrun, by simpa using hhold, bus_counts_once hrun⟩

end Ahasd
