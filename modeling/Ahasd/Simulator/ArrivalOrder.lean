/-
  File:      Ahasd/Simulator/ArrivalOrder.lean
  Subject:   THE ORDER OF ARRIVAL without the command scheduler: "the legacy ICNT->DRAM FIFO path is
             preserved" (Simulator.h).

  With `enable_pim_cmd_sched` off a node takes its requests in the order they wait in. Two paths
  bring them into DRAM: directly, and over the hold queue.

  * `Queued`: what arrived at a channel is what was pushed, then what is parked, then what waits;
  * `FirstIssue`, `cycle_order`: what a cycle does with the first request that waits;
  * `exec_order`: an act keeps `Queued` unless it pushes a request past a parked one (`Overtakes`),
    and then the order is broken;
  * `arrival_order`: so over the runs.
-/
import Ahasd.Simulator.Conservation
import Ahasd.Simulator.Turns

namespace Ahasd

open Transition Simulator

/-- A bypass absorbs the request. -/
def Transfer.bypasses (v : Transfer) : Bool := v.dst.any fun p => match p with
  | .aauBypass _ | .ssrcBypass _ => true
  | _ => false

namespace Simulator

variable {s s' : Simulator} {h : List Transfer} {m : Nat}

/-- The requests that enter the DRAM of a channel, in order. -/
def pushesAt (m : Nat) (h : List Transfer) : List MemoryAccess :=
  (h.filter fun v => v.dst = some (.dram m)).map Transfer.access

/-- The requests enter the DRAM of each PIM channel in the order in which they arrived there. -/
def InOrder (isPimChannel : Nat → Bool) (h : List Transfer) : Prop :=
  ∀ m, isPimChannel m = true → pushesAt m h <+: arrivalsAt m h

/-- What is still parked at a channel after a cycle's release. -/
def stillParked (full : MemoryAccess → Bool) (m : Nat) (s : Simulator) : List (Nat × MemoryAccess) :=
  (s.channels m).pimHoldQueue.drop (s.released full m).toList.length

/-- The act is a cycle in which the next request that waits at a PIM channel goes to DRAM, which
    takes it, the channel being held no longer, while another request is still parked there. -/
def Overtakes (s : Simulator) : MemoryAct → Prop
  | .icntCycle bp => ∃ m < s.nMemories, s.isPimChannel m = true ∧
      s.stillParked (bp.holdDramFull m) m ≠ [] ∧
      s.pim.holdUntil m ≤ s.coreCycles ∧
      ∃ front ∈ (s.channels m).waiting.head?, bp.issueDramFull m front = false
  | _ => False

/-- What is parked at a channel. -/
def parkedAt (s : Simulator) (m : Nat) : List MemoryAccess :=
  (s.channels m).pimHoldQueue.map fun e => e.2.identity

/-- What waits at a channel. -/
def waitingAt (s : Simulator) (m : Nat) : List MemoryAccess :=
  (s.channels m).waiting.map MemoryAccess.identity

/-- **What arrived was pushed, or is parked, or waits**, in this order. -/
def Queued (s : Simulator) (h : List Transfer) (m : Nat) : Prop :=
  arrivalsAt m h = pushesAt m h ++ s.parkedAt m ++ s.waitingAt m

theorem Queued.in_order (hq : Queued s h m) : pushesAt m h <+: arrivalsAt m h := by
  rw [hq, List.append_assoc]
  exact List.prefix_append _ _

/-! ## 1. Lists of transfers -/

theorem pushesAt_append (m : Nat) (h e : List Transfer) :
    pushesAt m (h ++ e) = pushesAt m h ++ pushesAt m e := by
  simp [pushesAt]

theorem arrivalsAt_append (m : Nat) (h e : List Transfer) :
    arrivalsAt m (h ++ e) = arrivalsAt m h ++ arrivalsAt m e := by
  simp [arrivalsAt]

theorem pushesAt_nil_of {e : List Transfer} (he : ∀ v ∈ e, v.dst ≠ some (.dram m)) :
    pushesAt m e = [] := by
  rw [pushesAt, List.filter_eq_nil_iff.mpr fun v hv => by simpa using he v hv]
  rfl

theorem arrivalsAt_nil_of {e : List Transfer} (he : ∀ v ∈ e, v.dst ≠ some (.icntOutput m)) :
    arrivalsAt m e = [] := by
  rw [arrivalsAt, List.filter_eq_nil_iff.mpr fun v hv => by simpa using he v hv]
  rfl

/-! ## 2. What a turn takes, parks and pushes -/

/-- Without the scheduler a node takes the first request that waits. -/
theorem incoming_first (hsched : s.config.enablePimCmdSched = false)
    (hpim : s.isPimChannel m = true) (full : MemoryAccess → Bool) :
    (s.incoming full m).map Prod.fst = (s.channels m).waiting.head? ∧
      ∀ r, s.incoming full m = some r →
        waitingAfter (s.channels m) r.2 = (s.channels m).waiting.tail := by
  cases hch : s.channels m with
  | mk icntOutput pimCmdOooQueue _ _ _ _ _ =>
      cases pimCmdOooQueue with
      | cons access rest =>
          have hin : s.incoming full m = some (access, some 0) := by
            simp [incoming, selectPimCommand, hch, hpim, hsched]
          rw [hin]
          refine ⟨rfl, ?_⟩
          rintro r ⟨⟩
          rfl
      | nil =>
          have hin : s.incoming full m = icntOutput.head?.map (·, none) := by
            simp [incoming, hch]
          rw [hin]
          cases icntOutput with
          | nil => exact ⟨rfl, fun r hr => nomatch hr⟩
          | cons access rest =>
              refine ⟨rfl, ?_⟩
              rintro r ⟨⟩
              rfl

/-- The release takes the front of the parked requests. -/
theorem parkedAt_split (full : MemoryAccess → Bool) (s : Simulator) (m : Nat) :
    s.parkedAt m = (s.released full m).toList.map MemoryAccess.identity ++
      (s.stillParked full m).map fun e => e.2.identity := by
  unfold parkedAt stillParked released
  cases (s.channels m).pimHoldQueue with
  | nil => rfl
  | cons e rest =>
      obtain ⟨deadline, front⟩ := e
      dsimp only
      split <;> rfl

section Turn

variable {bp : BackPressure} {t : Simulator} {refilled issued back : List Transfer}
  {r : Simulator × List Transfer}

/-- A turn pushes what it releases and what it issues into DRAM. -/
theorem TurnSpec.pushes (h : TurnSpec bp m s t refilled issued back r) :
    pushesAt m r.2 = (s.released (bp.holdDramFull m) m).toList.map MemoryAccess.identity ++
      pushesAt m issued := by
  have hrefilled : pushesAt m refilled = [] :=
    pushesAt_nil_of fun v hv heq => by
      rw [(h.refill v hv).2] at heq
      cases heq
  have hback : pushesAt m back = [] :=
    pushesAt_nil_of fun v hv heq => by
      obtain ⟨node, hnode⟩ := (h.answers v hv).2
      rw [hnode] at heq
      cases node <;> cases heq
  rw [h.transfers]
  simp only [pushesAt_append, hrefilled, hback, List.append_nil]
  congr 1
  cases s.released (bp.holdDramFull m) m with
  | none => rfl
  | some front => simp [pushesAt, releaseOf]

/-- Nothing arrives in a turn. -/
theorem TurnSpec.no_arrival (h : TurnSpec bp m s t refilled issued back r) (x : Nat) :
    ∀ v ∈ r.2, v.dst ≠ some (.icntOutput x) := by
  intro v hv heq
  rw [h.transfers] at hv
  simp only [List.append_assoc, List.mem_append] at hv
  rcases hv with hv | hv | hv | hv
  · obtain ⟨front, _, rfl⟩ := List.mem_map.mp hv
    cases heq
  · rw [(h.refill v hv).2] at heq
    cases heq
  · have hissue := h.issue
    generalize hr : (r.1, issued) = r' at hissue
    cases hissue with
    | none =>
        cases hr
        cases hv
    | @one _ _ _ landing _ _ _ _ _ =>
        cases hr
        rw [List.mem_singleton.mp hv] at heq
        cases landing <;> cases heq
  · obtain ⟨node, hnode⟩ := (h.answers v hv).2
    rw [hnode] at heq
    cases node <;> cases heq

end Turn

/-- What a turn without the scheduler and without a bypass does with the first waiting request: what
    it pushes, what is parked then and what waits then. -/
inductive FirstIssue (s : Simulator) (bp : BackPressure) (m : Nat) :
    List MemoryAccess → List MemoryAccess → List MemoryAccess → Prop where
  | idle (hfull : ∀ front ∈ (s.channels m).waiting.head?, bp.issueDramFull m front = true) :
      FirstIssue s bp m [] ((s.stillParked (bp.holdDramFull m) m).map fun e => e.2.identity)
        (s.waitingAt m)
  | parks {front : MemoryAccess} {rest : List MemoryAccess}
      (hfront : (s.channels m).waiting = front :: rest)
      (hheld : s.coreCycles < s.pim.holdUntil m) :
      FirstIssue s bp m []
        (((s.stillParked (bp.holdDramFull m) m).map fun e => e.2.identity) ++ [front.identity])
        (rest.map MemoryAccess.identity)
  | pushes {front : MemoryAccess} {rest : List MemoryAccess}
      (hfront : (s.channels m).waiting = front :: rest)
      (hfree : bp.issueDramFull m front = false) (hover : s.pim.holdUntil m ≤ s.coreCycles) :
      FirstIssue s bp m [front.identity]
        ((s.stillParked (bp.holdDramFull m) m).map fun e => e.2.identity)
        (rest.map MemoryAccess.identity)

theorem FirstIssue.congr {bp : BackPressure} {pushed parked waiting : List MemoryAccess}
    (hst : Steady s s') (hch : s'.channels m = s.channels m)
    (h : FirstIssue s' bp m pushed parked waiting) : FirstIssue s bp m pushed parked waiting := by
  have hstill : s'.stillParked (bp.holdDramFull m) m = s.stillParked (bp.holdDramFull m) m := by
    unfold stillParked
    rw [released_congr hst hch, hch]
  cases h with
  | idle hfull =>
      rw [hstill, waitingAt, hch]
      rw [hch] at hfull
      exact .idle hfull
  | parks hfront hheld =>
      rw [hch] at hfront
      rw [hst.coreCycles, hst.holdUntil m] at hheld
      rw [hstill]
      exact .parks hfront hheld
  | pushes hfront hfree hover =>
      rw [hch] at hfront
      rw [hst.coreCycles, hst.holdUntil m] at hover
      rw [hstill]
      exact .pushes hfront hfree hover

/-- **The turn's issue takes the first waiting request.** -/
theorem TurnSpec.first_issue {bp : BackPressure} {t : Simulator}
    {refilled issued back : List Transfer} {r : Simulator × List Transfer}
    (h : TurnSpec bp m s t refilled issued back r)
    (hsched : s.config.enablePimCmdSched = false) (hpim : s.isPimChannel m = true)
    (hbypass : ∀ v ∈ issued, v.bypasses = false) :
    FirstIssue s bp m (pushesAt m issued) (r.1.parkedAt m) (r.1.waitingAt m) := by
  have hst := h.steady
  obtain ⟨hfirst, htail⟩ := incoming_first (s := t) (m := m) (by rw [hst.config]; exact hsched)
    ((hst.isPimChannel m).trans hpim) (bp.issueDramFull m)
  rw [h.waiting] at hfirst htail
  have hissue := h.issue
  generalize hr : (r.1, issued) = r' at hissue
  cases hissue with
  | none hidle hhold hwait =>
      cases hr
      unfold parkedAt waitingAt
      rw [hhold, hwait, h.hold, h.waiting]
      refine .idle fun front hfront => ?_
      rw [← hfirst] at hfront
      obtain ⟨x, hx, rfl⟩ := Option.map_eq_some_iff.mp hfront
      exact hidle x hx
  | @one _ front index landing hin hfull hlands hhold hwait =>
      cases hr
      have htaken := htail _ hin
      rw [hin] at hfirst
      obtain ⟨rest, hwaiting⟩ : ∃ rest, (s.channels m).waiting = front :: rest := by
        cases hw : (s.channels m).waiting with
        | nil =>
            rw [hw] at hfirst
            cases hfirst
        | cons x rest =>
            rw [hw] at hfirst
            cases hfirst
            exact ⟨rest, rfl⟩
      have hrest : waitingAfter (t.channels m) index = rest := by
        rw [htaken, hwaiting]
        rfl
      have hlands' := hlands.congr hst
      have hout := hbypass _ (List.mem_singleton_self _)
      unfold parkedAt waitingAt
      rw [hhold, hwait, hrest, h.hold]
      cases landing with
      | hold cycles =>
          show FirstIssue s bp m [] (List.map _ (_ ++ [_])) _
          rw [List.map_append]
          exact .parks hwaiting hlands'.2.1
      | dram =>
          have hpush : pushesAt m [t.acceptOf m front index .dram] = [front.identity] := by
            simp [pushesAt, acceptOf, Landing.place]
          rw [hpush]
          exact .pushes hwaiting hfull (hlands' hpim)
      | ssrcBypass => cases hout
      | aauBypass => cases hout

/-! ## 3. A cycle -/

/-- What a cycle pushes at a channel, its turn pushes. -/
theorem pushesAt_cycle (bp : BackPressure) (s : Simulator) (m : Nat) :
    pushesAt m (runOps bp s.ops s).2 =
      pushesAt m ((runOps bp s.ops s).2.filter fun v => v.memId = some m) := by
  unfold pushesAt
  rw [List.filter_filter]
  congr 1
  refine List.filter_congr fun v hv => ?_
  by_cases hdst : v.dst = some (.dram m)
  · obtain ⟨x, t₀, t, refilled, issued, back, hx, _, _, _, hmem, hturn⟩ :=
      cycle_turn_of hv hdst rfl
    obtain ⟨rfl, _⟩ := hturn.into_dram hmem hdst
    simp [hdst, hx]
  · simp [hdst]

/-- Nothing arrives in a cycle. -/
theorem arrivalsAt_cycle (bp : BackPressure) (s : Simulator) (m : Nat) :
    arrivalsAt m (runOps bp s.ops s).2 = [] := by
  refine arrivalsAt_nil_of fun v hv hdst => ?_
  obtain ⟨x, t₀, t, refilled, issued, back, _, _, _, _, hmem, hturn⟩ := cycle_turn_of hv hdst rfl
  exact hturn.no_arrival m v hmem hdst

/-- **A cycle at a channel**: the release, then the first waiting request. -/
theorem cycle_order {bp : BackPressure} (hm : m < s.nMemories)
    (hsched : s.config.enablePimCmdSched = false) (hpim : s.isPimChannel m = true)
    (hbypass : ∀ v ∈ (runOps bp s.ops s).2, v.bypasses = false) :
    ∃ pushed, FirstIssue s bp m pushed ((runOps bp s.ops s).1.parkedAt m)
        ((runOps bp s.ops s).1.waitingAt m) ∧
      pushesAt m (runOps bp s.ops s).2 =
        (s.released (bp.holdDramFull m) m).toList.map MemoryAccess.identity ++ pushed := by
  obtain ⟨t₀, hst, hch, hafter, htr⟩ := cycle_turn bp s hm
  obtain ⟨t, refilled, issued, back, hturn⟩ := turn_spec bp m t₀
  have hissued : ∀ v ∈ issued, v.bypasses = false := by
    intro v hv
    have hmem : v ∈ (runOps bp s.ops s).2.filter fun v => v.memId = some m := by
      rw [htr, hturn.transfers]
      simp [hv]
    exact hbypass v (List.mem_filter.mp hmem).1
  have hfirst := hturn.first_issue (by rw [hst.config]; exact hsched)
    ((hst.isPimChannel m).trans hpim) hissued
  refine ⟨pushesAt m issued, ?_, ?_⟩
  · unfold parkedAt waitingAt at hfirst ⊢
    rw [hafter]
    exact hfirst.congr hst hch
  · rw [pushesAt_cycle, htr, hturn.pushes, released_congr hst hch]

/-- What is in order stays in order if the cycle pushes nothing past a parked request. -/
theorem Queued.cycle {bp : BackPressure} (hq : Queued s h m)
    (hsched : s.config.enablePimCmdSched = false) (hpim : s.isPimChannel m = true)
    (hbypass : ∀ v ∈ (runOps bp s.ops s).2, v.bypasses = false)
    (hno : ¬ s.Overtakes (.icntCycle bp)) :
    Queued (runOps bp s.ops s).1 (h ++ (runOps bp s.ops s).2) m := by
  unfold Queued at hq ⊢
  rw [arrivalsAt_append, arrivalsAt_cycle, List.append_nil, hq, pushesAt_append]
  by_cases hm : m < s.nMemories
  · obtain ⟨pushed, hfirst, hpushes⟩ := cycle_order hm hsched hpim hbypass
    rw [hpushes, s.parkedAt_split (bp.holdDramFull m) m]
    generalize hparked : (runOps bp s.ops s).1.parkedAt m = parked at hfirst
    generalize hwaiting : (runOps bp s.ops s).1.waitingAt m = waiting at hfirst
    cases hfirst with
    | idle => simp only [List.append_assoc, List.nil_append]
    | parks hfront =>
        rw [waitingAt, hfront]
        simp only [List.map_cons, List.append_assoc, List.nil_append, List.cons_append]
    | @pushes front rest hfront hfree hover =>
        have hnone : s.stillParked (bp.holdDramFull m) m = [] := by
          by_contra hne
          exact hno ⟨m, hm, hpim, hne, hover, front, by rw [hfront]; rfl, hfree⟩
        rw [waitingAt, hfront, hnone]
        simp only [List.map_cons, List.map_nil, List.append_assoc, List.nil_append, List.cons_append,
          List.append_nil]
  · obtain ⟨hch, htr⟩ := cycle_beyond bp s hm
    rw [pushesAt_cycle, htr]
    unfold parkedAt waitingAt
    rw [hch]
    simp [pushesAt]

/-- **A cycle that overtakes breaks the order.** -/
theorem Queued.broken {bp : BackPressure} (hq : ∀ m, s.isPimChannel m = true → Queued s h m)
    (ha : Account s h) (hsched : s.config.enablePimCmdSched = false)
    (hbypass : ∀ v ∈ (runOps bp s.ops s).2, v.bypasses = false)
    (hover : s.Overtakes (.icntCycle bp)) :
    ¬ InOrder s.isPimChannel (h ++ (runOps bp s.ops s).2) := by
  obtain ⟨m, hm, hpim, hstill, hfree, front, hfront, hdram⟩ := hover
  intro horder
  have hprefix := horder m hpim
  have hqueued := hq m hpim
  unfold Queued at hqueued
  -- no two requests that arrived are the same
  have hnodup : (arrivalsAt m h).Nodup := by
    have hsub : (arrivalsAt m h).Sublist (requestsOf Transfer.arrives h) := by
      refine List.Sublist.map _ ?_
      have hboth : h.filter (fun v => v.dst = some (.icntOutput m)) =
          (h.filter Transfer.arrives).filter (fun v => v.dst = some (.icntOutput m)) := by
        rw [List.filter_filter]
        refine List.filter_congr fun v _ => ?_
        by_cases hdst : v.dst = some (.icntOutput m) <;> simp [hdst, Transfer.arrives]
      rw [hboth]
      exact List.filter_sublist
    exact hsub.nodup (List.nodup_iff_count_le_one.mpr
      (ha.once closed_reached fun v hv harr => by rwa [entering_reached hv]))
  obtain ⟨pushed, hfirst, hpushes⟩ := cycle_order hm hsched hpim hbypass
  obtain ⟨rest, hwaiting⟩ : ∃ rest, (s.channels m).waiting = front :: rest := by
    cases hw : (s.channels m).waiting with
    | nil =>
        rw [hw] at hfront
        cases hfront
    | cons x rest =>
        rw [hw] at hfront
        cases hfront
        exact ⟨rest, rfl⟩
  have hpushed : pushed = [front.identity] := by
    generalize (runOps bp s.ops s).1.parkedAt m = parked at hfirst
    generalize (runOps bp s.ops s).1.waitingAt m = waiting at hfirst
    cases hfirst with
    | idle hfull =>
        rw [hfull front hfront] at hdram
        cases hdram
    | parks _ hheld => exact absurd hheld (Nat.not_lt.mpr hfree)
    | pushes hfront' =>
        rw [hwaiting] at hfront'
        cases hfront'
        rfl
  rw [arrivalsAt_append, arrivalsAt_cycle, List.append_nil, pushesAt_append, hpushes, hpushed, hqueued,
    s.parkedAt_split (bp.holdDramFull m) m, waitingAt, hwaiting] at hprefix
  rw [hqueued, s.parkedAt_split (bp.holdDramFull m) m, waitingAt, hwaiting] at hnodup
  cases hparked : s.stillParked (bp.holdDramFull m) m with
  | nil => exact hstill hparked
  | cons e held =>
      rw [hparked] at hprefix hnodup
      simp only [List.append_assoc, List.map_cons, List.cons_append] at hprefix hnodup
      rw [List.prefix_append_right_inj, List.prefix_append_right_inj] at hprefix
      have heq : front.identity = e.2.identity := (List.cons_prefix_cons.mp hprefix).1
      have htail := ((List.nodup_append.mp hnodup).2.1)
      have htail' := (List.nodup_cons.mp (List.nodup_append.mp htail).2.1).1
      refine htail' (List.mem_append_right _ ?_)
      rw [← heq]
      exact List.mem_cons_self

/-! ## 4. Runs -/

/-- Between the cycles what arrives waits behind the others. -/
theorem Queued.between {a : MemoryAct} {r : Simulator × List Transfer} (hq : Queued s h m)
    (hb : Between s a r) : Queued r.1 (h ++ r.2) m := by
  unfold Queued at hq ⊢
  have hpushes : pushesAt m r.2 = [] := pushesAt_nil_of fun v hv hdst => by
    have hout := (hb.transfers v hv).2
    rw [hdst] at hout
    cases hout
  have hwaiting : r.1.waitingAt m = s.waitingAt m ++ arrivalsAt m r.2 := hb.waiting m
  have hparked : r.1.parkedAt m = s.parkedAt m := by
    unfold parkedAt
    rw [hb.hold m]
  rw [arrivalsAt_append, pushesAt_append, hpushes, hwaiting, hparked, hq]
  simp only [List.append_assoc, List.nil_append]

/-- Every act keeps the configuration. -/
theorem exec_config {a : MemoryAct} {r : Simulator × List Transfer} (hr : s.exec a = some r) :
    r.1.config = s.config := by
  by_cases ha : ∃ bp, a = .icntCycle bp
  · obtain ⟨bp, rfl⟩ := ha
    cases hr
    exact (runOps_steady bp s.ops s).config
  · exact (exec_between hr fun bp heq => ha ⟨bp, heq⟩).config

/-- **An act keeps the queues in order if and only if it does not overtake.** -/
theorem exec_order {a : MemoryAct} {r : Simulator × List Transfer} (hr : s.exec a = some r)
    (ha : Account s h) (hsched : s.config.enablePimCmdSched = false)
    (hbypass : ∀ v ∈ r.2, v.bypasses = false)
    (hq : ∀ m, s.isPimChannel m = true → Queued s h m) :
    (¬ s.Overtakes a → ∀ m, s.isPimChannel m = true → Queued r.1 (h ++ r.2) m) ∧
      (InOrder s.isPimChannel (h ++ r.2) → ¬ s.Overtakes a) := by
  by_cases hcycle : ∃ bp, a = .icntCycle bp
  · obtain ⟨bp, rfl⟩ := hcycle
    cases hr
    exact ⟨fun hno m hpim => (hq m hpim).cycle hsched hpim hbypass hno,
      fun horder hover => Queued.broken hq ha hsched hbypass hover horder⟩
  · have hb := exec_between hr fun bp heq => hcycle ⟨bp, heq⟩
    refine ⟨fun _ m hpim => (hq m hpim).between hb, fun _ hover => ?_⟩
    cases a with
    | icntCycle bp => exact hcycle ⟨bp, rfl⟩
    | _ => exact hover

end Simulator

/-- **Without the command scheduler and without a bypass the requests enter the DRAM of each PIM
    channel in the order of their arrival, in every state of a run, if and only if no cycle of the
    run pushes a waiting request past a parked one.** -/
theorem arrival_order {c : MemorySetup} (hsched : c.config.enablePimCmdSched = false)
    {as : List MemoryAct} {s : Simulator} {h : List Transfer} (hr : c.run as = some (s, h))
    (hbypass : ∀ v ∈ h, v.bypasses = false) :
    (∀ bs, bs <+: as → ∀ t e, c.run bs = some (t, e) → InOrder c.start.isPimChannel e) ↔
      ∀ bs a, bs ++ [a] <+: as → ∀ t e, c.run bs = some (t, e) → ¬ t.Overtakes a := by
  refine Machine.run_iff machine (C := fun t a => ¬ t.Overtakes a)
    (I := fun _ t e => t.isPimChannel = c.start.isPimChannel ∧ t.config = c.config ∧
      ∀ m, t.isPimChannel m = true → Queued t e m)
    (Q := fun _ _ e => InOrder c.start.isPimChannel e) (by
      show (c.run as).isSome = true
      rw [hr]
      rfl) ?_ ?_ ?_
  · exact ⟨rfl, rfl, fun m _ => rfl⟩
  · rintro _ t e ⟨hpim, _, hq⟩ m hm
    exact (hq m (by rw [hpim]; exact hm)).in_order
  · rintro bs a t e t' hb ht ⟨hpim, hconfig, hq⟩ hs
    obtain ⟨f, hexec, hobs⟩ := machine_step hs
    rw [hobs]
    -- the transfers of the step are transfers of the run
    have hrun : c.run (bs ++ [a]) = some (t', e ++ f) := by
      show machine.run (bs ++ [a]) c.start = _
      rw [Machine.run_snoc, ht, Option.bind_some, hs, ← hobs]
      rfl
    have hout : ∀ v ∈ f, v.bypasses = false := fun v hv =>
      hbypass v ((Machine.run_history machine hb hrun hr).subset (List.mem_append_right e hv))
    have hstep := exec_order hexec (MemorySetup.account ht) (by rw [hconfig]; exact hsched) hout hq
    have hpim' : t'.isPimChannel = t.isPimChannel :=
      funext fun m => exec_isPimChannel hexec m
    refine ⟨fun hno => ⟨hpim'.trans hpim, (exec_config hexec).trans hconfig, ?_⟩, ?_⟩
    · intro m hm
      rw [hpim'] at hm
      exact hstep.1 hno m hm
    · rw [← hpim]
      exact hstep.2

/-- Two requests are parked until cycle 2, a third arrives. The cycle that releases the first sends
    the third to DRAM, past the second. -/
theorem parked_request_overtaken : ∃ s h, memorySample.run (parking ++ arriving ++
      [.deliver (.memory 0) 0, .coreCycle, .coreCycle, .icntCycle {}]) = some (s, h) ∧
    memorySample.config.enablePimCmdSched = false ∧ (∀ v ∈ h, v.bypasses = false) ∧
    memorySample.start.isPimChannel 0 = true ∧
    (arrivalsAt 0 h).map MemoryAccess.id = [0, 1, 2] ∧
    (pushesAt 0 h).map MemoryAccess.id = [0, 2] ∧
    ¬ InOrder memorySample.start.isPimChannel h := by
  obtain ⟨⟨s, h⟩, hrun, hend⟩ := (Option.any_eq_true _ _).mp (show
    (memorySample.run (parking ++ arriving ++ [.deliver (.memory 0) 0, .coreCycle, .coreCycle,
      .icntCycle {}])).any (fun r => (r.2.all fun v => v.bypasses = false) &&
        (arrivalsAt 0 r.2).map MemoryAccess.id = [0, 1, 2] &&
        (pushesAt 0 r.2).map MemoryAccess.id = [0, 2]) = true by decide +kernel)
  simp only [Bool.and_eq_true, decide_eq_true_eq, List.all_eq_true] at hend
  obtain ⟨⟨hbypass, harrivals⟩, hpushes⟩ := hend
  have hpim : memorySample.start.isPimChannel 0 = true := by decide +kernel
  refine ⟨s, h, hrun, rfl, hbypass, hpim, harrivals, hpushes, fun horder => ?_⟩
  have hprefix := (horder 0 hpim).map MemoryAccess.id
  rw [harrivals, hpushes] at hprefix
  exact absurd hprefix (by decide)

/-- A run that parks two requests and releases the first. -/
theorem arrival_order_sample : ∃ s h, memorySample.run (parking ++ arriving ++
      [.coreCycle, .coreCycle, .icntCycle {}]) = some (s, h) ∧
    (pushesAt 0 h).map MemoryAccess.id = [0] ∧
    ((∀ bs, bs <+: parking ++ arriving ++ [.coreCycle, .coreCycle, .icntCycle {}] → ∀ t e,
        memorySample.run bs = some (t, e) → InOrder memorySample.start.isPimChannel e) ↔
      ∀ bs a, bs ++ [a] <+: parking ++ arriving ++ [.coreCycle, .coreCycle, .icntCycle {}] → ∀ t e,
        memorySample.run bs = some (t, e) → ¬ t.Overtakes a) := by
  obtain ⟨⟨s, h⟩, hrun, hend⟩ := (Option.any_eq_true _ _).mp (show
    (memorySample.run (parking ++ arriving ++ [.coreCycle, .coreCycle, .icntCycle {}])).any
      (fun r => (r.2.all fun v => v.bypasses = false) &&
        (pushesAt 0 r.2).map MemoryAccess.id = [0]) = true by decide +kernel)
  simp only [Bool.and_eq_true, decide_eq_true_eq, List.all_eq_true] at hend
  obtain ⟨hbypass, hpushes⟩ := hend
  exact ⟨s, h, hrun, hpushes, arrival_order rfl hrun hbypass⟩

end Ahasd
