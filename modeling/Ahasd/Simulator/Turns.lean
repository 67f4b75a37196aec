/-
  File:      Ahasd/Simulator/Turns.lean
  Subject:   THE TURN OF A MEMORY NODE IN A CYCLE, and what the rest of the cycle leaves alone.

  * `Steady`: what no part of a cycle changes: the clock, the configuration, the holds;
  * `op_local`: the parts of the other nodes leave a channel alone, and none of their transfers is
    its;
  * `cycle_turn`: so a cycle does to a channel what the channel's own turn does, from the state
    before the cycle;
  * `route_spec`: where the overlay puts a request;
  * `drainHold_spec`, `refill_spec`, `issue_spec`: what the parts of a turn do to the queues, and
    `turn_spec` for the turn.
-/
import Ahasd.Simulator.Transfers

namespace Ahasd

/-! ## 1. What a cycle leaves alone -/

/-- The channel a transfer is at. -/
def Transfer.memId (v : Transfer) : Option Nat :=
  (v.src.bind Place.memId).or (v.dst.bind Place.memId)

/-- The node whose part this is. -/
def Op.memId : Op → Option Nat
  | coreRequest _ | coreResponse _ => none
  | noteCandidate m | drainHold m | refill m | issue m | drainBypass m | drainSsrcBypass m
  | dramResponse m => some m

/-- The requests of a channel that wait for their issue, in the order of their arrival. -/
def Channel.waiting (ch : Channel) : List MemoryAccess :=
  ch.pimCmdOooQueue ++ ch.icntOutput

/-- Where a request is once the memory side has accepted it: in DRAM, on hold or in a bypass. -/
def Place.inMemory : Place → Bool
  | hold _ | aauBypass _ | ssrcBypass _ | dram _ => true
  | _ => false

namespace Simulator

/-- No part of a cycle changes the clock, the configuration or the holds. -/
structure Steady (s s' : Simulator) : Prop where
  config : s'.config = s.config
  nCores : s'.nCores = s.nCores
  coreCycles : s'.coreCycles = s.coreCycles
  active : s'.pim.active = s.pim.active
  isPim : s'.pim.isPim = s.pim.isPim
  holds : s'.pim.perChannelHoldUntilNpu = s.pim.perChannelHoldUntilNpu

variable {s s' s'' : Simulator}

theorem Steady.refl (s : Simulator) : Steady s s := ⟨rfl, rfl, rfl, rfl, rfl, rfl⟩

theorem Steady.trans (h : Steady s s') (h' : Steady s' s'') : Steady s s'' :=
  ⟨h'.config.trans h.config, h'.nCores.trans h.nCores, h'.coreCycles.trans h.coreCycles,
    h'.active.trans h.active, h'.isPim.trans h.isPim, h'.holds.trans h.holds⟩

theorem Steady.isPimChannel (h : Steady s s') (m : Nat) : s'.isPimChannel m = s.isPimChannel m := by
  unfold Simulator.isPimChannel PIMBackend.isPimChannel
  rw [h.active, h.isPim]

theorem Steady.holdUntil (h : Steady s s') (m : Nat) : s'.pim.holdUntil m = s.pim.holdUntil m := by
  unfold PIMBackend.holdUntil
  rw [h.holds]

/-- Where a request may land. -/
def LandsAt (s : Simulator) (m : Nat) : Landing → Prop
  | .hold cycles => s.isPimChannel m = true ∧ s.coreCycles < s.pim.holdUntil m ∧
      cycles = min (s.pim.holdUntil m - s.coreCycles) (2 ^ 32 - 1)
  | .dram => s.isPimChannel m = true → s.pim.holdUntil m ≤ s.coreCycles
  | .ssrcBypass | .aauBypass => s.isPimChannel m = true

/-- **Where the overlay puts a request**: on hold for what is left of the channel's deadline, into
    DRAM when it is over, into a bypass on a PIM channel only. Meanwhile it keeps its holds. -/
structure RouteSpec (s : Simulator) (m : Nat) (r : Landing × PIMBackend × SSRCCoordinator) :
    Prop where
  active : r.2.1.active = s.pim.active
  isPim : r.2.1.isPim = s.pim.isPim
  holds : r.2.1.perChannelHoldUntilNpu = s.pim.perChannelHoldUntilNpu
  lands : s.LandsAt m r.1

theorem route_spec (m : Nat) (front : MemoryAccess) (s : Simulator) :
    RouteSpec s m (s.route m front) := by
  unfold route
  -- the SSRC bypass
  have hs : ∀ r : Bool × PIMBackend × SSRCCoordinator,
      (if (s.pim.active && s.ssrc.isEnabled) = true then s.pim.trySsrcBypass s.ssrc m front
        else (false, s.pim, s.ssrc)) = r →
      r.2.1.active = s.pim.active ∧ r.2.1.isPim = s.pim.isPim ∧
        r.2.1.perChannelHoldUntilNpu = s.pim.perChannelHoldUntilNpu ∧
        (r.1 = true → s.isPimChannel m = true) := by
    rintro r rfl
    split
    · have hr := (s.pim.trySsrcBypass_frame m front s.ssrc).1
      refine ⟨hr.active, hr.isPim, s.pim.trySsrcBypass_holds m front s.ssrc, fun h => ?_⟩
      obtain ⟨ha, hc, _⟩ := (s.pim.trySsrcBypass_absorbs m front s.ssrc).mp h
      unfold Simulator.isPimChannel
      rw [ha, hc]
      rfl
    · exact ⟨rfl, rfl, rfl, fun h => Bool.noConfusion h⟩
  generalize hr : (if (s.pim.active && s.ssrc.isEnabled) = true then
    s.pim.trySsrcBypass s.ssrc m front else (false, s.pim, s.ssrc)) = r
  obtain ⟨ssrcBypassed, pim, ssrc⟩ := r
  obtain ⟨h1, h2, h3, h4⟩ := hs _ hr
  dsimp only at h1 h2 h3 h4 ⊢
  cases ssrcBypassed with
  | true => exact ⟨h1, h2, h3, h4 rfl⟩
  | false =>
      rw [if_neg Bool.false_ne_true]
      cases ha : s.pim.active with
      | false =>
          simp only [Bool.false_eq_true, if_false, if_true]
          refine ⟨h1, h2, h3, fun hc => ?_⟩
          rw [Simulator.isPimChannel, ha] at hc
          cases hc
      | true =>
          simp only [if_true]
          -- the AAU bypass
          have hb := pim.tryAauBypass_sameRanks m front
          have hb' := pim.tryAauBypass_holds m front
          have hb'' := pim.tryAauBypass_channel m front
          generalize pim.tryAauBypass m front = r at hb hb' hb''
          obtain ⟨bypassed, pim'⟩ := r
          have hchannel : s.isPimChannel m = pim.isPimChannel m := by
            unfold Simulator.isPimChannel PIMBackend.isPimChannel
            rw [ha, h2, Bool.true_and]
          -- the hold
          have hp := pim'.onDramPush_sameRanks m front s.coreCycles
          have hp' := pim'.onDramPush_holds m front s.coreCycles
          have hhold := pim'.onDramPush_hold m front s.coreCycles
          generalize pim'.onDramPush m front s.coreCycles = r at hp hp' hhold
          obtain ⟨hold, pim''⟩ := r
          dsimp only at hb hb' hb'' hp hp' hhold ⊢
          cases bypassed with
          | true =>
              exact ⟨hb.active.trans h1, hb.isPim.trans h2, hb'.trans h3,
                hchannel.trans (hb'' rfl).2⟩
          | false =>
              have hpim : pim'.isPimChannel m = s.isPimChannel m := by
                rw [hchannel]
                exact hb.isPimChannel m
              have huntil : pim'.holdUntil m = s.pim.holdUntil m := by
                unfold PIMBackend.holdUntil
                rw [hb', h3]
              rw [hpim, huntil, hb.active, h1, ha] at hhold
              simp only [true_and] at hhold
              rw [if_neg Bool.false_ne_true]
              have hframe : ∀ landing, s.LandsAt m landing → RouteSpec s m (landing, pim'', ssrc) :=
                fun landing hl => ⟨hp.active.trans (hb.active.trans h1),
                  hp.isPim.trans (hb.isPim.trans h2), hp'.trans (hb'.trans h3), hl⟩
              by_cases hc : s.isPimChannel m = true ∧ s.coreCycles < s.pim.holdUntil m
              · rw [if_pos hc] at hhold
                rw [if_neg (by omega)]
                exact hframe _ ⟨hc.1, hc.2, hhold⟩
              · rw [if_neg hc] at hhold
                rw [if_pos hhold]
                exact hframe _ fun hpim => Nat.not_lt.mp fun hlt => hc ⟨hpim, hlt⟩

/-! ## 2. The parts of a cycle are steady, and each concerns one channel -/

/-- What a part at node `o` may do: nothing to the clock and the holds, nothing to the other
    channels, and no transfer of theirs. -/
structure Local (o : Option Nat) (s : Simulator) (r : Simulator × List Transfer) : Prop where
  steady : Steady s r.1
  channels : ∀ m, o ≠ some m → r.1.channels m = s.channels m
  transfers : ∀ v ∈ r.2, v.memId = o

theorem Local.nothing (o : Option Nat) (s : Simulator) : Local o s (s, []) :=
  ⟨.refl s, fun _ _ => rfl, fun _ h => nomatch h⟩

/-- Several parts at one node. -/
theorem Local.trans {o : Option Nat} {e e' : List Transfer} (h : Local o s (s', e))
    (h' : Local o s' (s'', e')) : Local o s (s'', e ++ e') where
  steady := h.steady.trans h'.steady
  channels m hm := (h'.channels m hm).trans (h.channels m hm)
  transfers v hv := (List.mem_append.mp hv).elim (h.transfers v) (h'.transfers v)

theorem updateChannel_local {m : Nat} {f : Channel → Channel} {e : List Transfer}
    (he : ∀ v ∈ e, v.memId = some m) : Local (some m) s (s.updateChannel m f, e) where
  steady := ⟨rfl, rfl, rfl, rfl, rfl, rfl⟩
  channels x hx := Function.update_of_ne (fun heq => hx (by rw [heq])) _ _
  transfers := he

/-- Counters do not matter. -/
theorem Local.counters {o : Option Nat} {e : List Transfer} (h : Local o s (s', e))
    (hst : Steady s' s'') (hch : s''.channels = s'.channels) : Local o s (s'', e) where
  steady := h.steady.trans hst
  channels m hm := by
    rw [hch]
    exact h.channels m hm
  transfers := h.transfers

theorem notePimCommandIssued_steady (m : Nat) (s : Simulator) :
    Steady s (s.notePimCommandIssued m) ∧ (s.notePimCommandIssued m).channels = s.channels := by
  unfold notePimCommandIssued
  split <;> exact ⟨⟨rfl, rfl, rfl, rfl, rfl, rfl⟩, rfl⟩

theorem noteTlmReadIssueWindow_steady (m : Nat) (selected : Option MemoryAccess) (s : Simulator) :
    Steady s (s.noteTlmReadIssueWindow m selected) := by
  unfold noteTlmReadIssueWindow
  split
  · exact .refl s
  · split
    · exact .refl s
    · exact ⟨rfl, rfl, rfl, rfl, rfl, rfl⟩

theorem notePimCommandCandidate_steady (m : Nat) (s : Simulator) :
    Steady s (s.notePimCommandCandidate m) ∧
      (s.notePimCommandCandidate m).channels = s.channels := by
  unfold notePimCommandCandidate
  dsimp only
  split <;> exact ⟨⟨rfl, rfl, rfl, rfl, rfl, rfl⟩, rfl⟩

theorem drainHold_local (full : MemoryAccess → Bool) (m : Nat) :
    Local (some m) s (s.drainHold full m) := by
  unfold drainHold
  split
  · exact .nothing _ s
  · split
    · exact (updateChannel_local (fun v hv => by rw [List.mem_singleton.mp hv]; rfl)).counters
        ((notePimCommandIssued_steady m _).1.trans ⟨rfl, rfl, rfl, rfl, rfl, rfl⟩)
        (notePimCommandIssued_steady m _).2
    · exact .nothing _ s

theorem refill_local (m : Nat) : Local (some m) s (s.refill m) :=
  refill_of_moved ⟨.nothing _, .trans⟩ (fun _ _ _ _ => updateChannel_local fun v hv => by
    rw [List.mem_singleton.mp hv]
    rfl) s

theorem accept_local (m : Nat) (front : MemoryAccess) (index : Option Nat) :
    Local (some m) s (s.accept m front index) := by
  unfold accept
  have hroute := s.route_spec m front
  generalize s.route m front = r at hroute
  obtain ⟨landing, pim, ssrc⟩ := r
  dsimp only
  have hoverlay : Steady s { s with pim := pim, ssrc := ssrc } :=
    ⟨rfl, rfl, rfl, hroute.active, hroute.isPim, hroute.holds⟩
  have hplace : ∀ v ∈ [({
      access := front.identity
      src := some (incomingPlace m index)
      dst := some (landing.place m)
      npuCycle := s.coreCycles
      holdUntil := s.pim.holdUntil m } : Transfer)], v.memId = some m := by
    intro v hv
    rw [List.mem_singleton.mp hv]
    cases index <;> rfl
  have hupdate := updateChannel_local (s := { s with pim := pim, ssrc := ssrc })
    (f := fun ch => takeIncoming index (s.land front ch landing)) hplace
  have hlocal : Local (some m) s ({ s with pim := pim, ssrc := ssrc }.updateChannel m
      fun ch => takeIncoming index (s.land front ch landing), _) :=
    ⟨hoverlay.trans hupdate.steady, hupdate.channels, hupdate.transfers⟩
  refine hlocal.counters ?_ ?_
  · split
    · exact (notePimCommandIssued_steady m _).1.trans ⟨rfl, rfl, rfl, rfl, rfl, rfl⟩
    · exact ⟨rfl, rfl, rfl, rfl, rfl, rfl⟩
  · split
    · exact (notePimCommandIssued_steady m _).2
    · rfl

theorem issue_local (full : MemoryAccess → Bool) (m : Nat) :
    Local (some m) s (s.issue full m) := by
  unfold issue
  dsimp only
  have hst := noteTlmReadIssueWindow_steady m ((s.incoming full m).map Prod.fst) s
  have hch := noteTlmReadIssueWindow_channels m ((s.incoming full m).map Prod.fst) s
  have hnote : Local (some m) s
      (s.noteTlmReadIssueWindow m ((s.incoming full m).map Prod.fst), []) :=
    ⟨hst, fun x _ => by rw [hch], fun _ h => nomatch h⟩
  generalize s.noteTlmReadIssueWindow m ((s.incoming full m).map Prod.fst) = t at hnote
  split
  · exact hnote
  · split
    · exact hnote
    · exact hnote.trans (e := []) (accept_local m _ _)

theorem sendBack_local {m : Nat} {f : Channel → Channel} {p : Place} (hp : p.memId = some m)
    (response : MemoryAccess) : Local (some m) s ((s.updateChannel m f).sendBack p response) := by
  unfold sendBack
  dsimp only
  refine (updateChannel_local (f := f) (fun v hv => ?_)).counters ?_ (icntPush_channels _ _ _)
  · rw [List.mem_singleton.mp hv]
    show (p.memId).or _ = some m
    rw [hp]
    rfl
  · cases getDestNode (s.updateChannel m f) response <;> exact ⟨rfl, rfl, rfl, rfl, rfl, rfl⟩

theorem drainBypass_local (full : MemoryAccess → Bool) (m : Nat) :
    Local (some m) s (s.drainBypass full m) := by
  unfold drainBypass
  split
  · exact .nothing _ s
  · split
    · exact sendBack_local rfl _
    · exact .nothing _ s

theorem drainSsrcBypass_local (full : MemoryAccess → Bool) (m : Nat) :
    Local (some m) s (s.drainSsrcBypass full m) := by
  unfold drainSsrcBypass
  split
  · exact .nothing _ s
  · split
    · exact sendBack_local rfl _
    · exact .nothing _ s

theorem dramResponse_local (full : MemoryAccess → Bool) (m : Nat) :
    Local (some m) s (s.dramResponse full m) := by
  unfold dramResponse
  split
  · exact .nothing _ s
  · split
    · exact .nothing _ s
    · exact sendBack_local rfl _

theorem coreRequest_local (full : MemoryAccess → Bool) (coreId : Nat) :
    Local none s (s.coreRequest full coreId) := by
  unfold coreRequest
  split
  · exact .nothing _ s
  · next access rest _ =>
      dsimp only
      split
      · exact ⟨⟨rfl, rfl, rfl, rfl, rfl, rfl⟩, fun _ _ => rfl, fun _ h => nomatch h⟩
      · cases hdest : getDestNode s { access with coreId := coreId } <;>
          exact ⟨⟨rfl, rfl, rfl, rfl, rfl, rfl⟩, fun _ _ => rfl, fun v hv => by
            rw [List.mem_singleton.mp hv]
            rfl⟩

theorem coreResponse_local (coreId : Nat) : Local none s (s.coreResponse coreId) := by
  unfold coreResponse
  split
  · exact .nothing _ s
  · exact ⟨⟨rfl, rfl, rfl, rfl, rfl, rfl⟩, fun _ _ => rfl, fun v hv => by
      rw [List.mem_singleton.mp hv]
      rfl⟩

/-- **Every part of a cycle is local to its node.** -/
theorem op_local (bp : BackPressure) (o : Op) : Local o.memId s (s.op bp o) := by
  cases o with
  | coreRequest coreId => exact coreRequest_local _ coreId
  | coreResponse coreId => exact coreResponse_local coreId
  | noteCandidate memId =>
      obtain ⟨hst, hch⟩ := s.notePimCommandCandidate_steady memId
      exact ⟨hst, fun m _ => by show (s.notePimCommandCandidate memId).channels m = _; rw [hch],
        fun _ h => nomatch h⟩
  | drainHold memId => exact drainHold_local _ memId
  | refill memId => exact refill_local memId
  | issue memId => exact issue_local _ memId
  | drainBypass memId => exact drainBypass_local _ memId
  | drainSsrcBypass memId => exact drainSsrcBypass_local _ memId
  | dramResponse memId => exact dramResponse_local _ memId

/-! ## 3. A cycle is the turns of its nodes -/

theorem runOps_append (bp : BackPressure) (os os' : List Op) (s : Simulator) :
    runOps bp (os ++ os') s =
      ((runOps bp os' (runOps bp os s).1).1,
        (runOps bp os s).2 ++ (runOps bp os' (runOps bp os s).1).2) := by
  induction os generalizing s with
  | nil => simp [runOps]
  | cons o os ih =>
      simp only [List.cons_append, runOps, ih]
      simp [List.append_assoc]

theorem runOps_steady (bp : BackPressure) (os : List Op) (s : Simulator) :
    Steady s (runOps bp os s).1 :=
  runOps_of_op (R := fun s r => Steady s r.1) ⟨.refl, .trans⟩ (fun _ o => (op_local bp o).steady)
    os s

/-- The parts of other nodes. -/
theorem runOps_apart (bp : BackPressure) {m : Nat} (os : List Op) (s : Simulator)
    (hos : ∀ o ∈ os, o.memId ≠ some m) : (runOps bp os s).1.channels m = s.channels m ∧
      ∀ v ∈ (runOps bp os s).2, v.memId ≠ some m := by
  induction os generalizing s with
  | nil => exact ⟨rfl, fun _ h => nomatch h⟩
  | cons o os ih =>
      have hl := op_local (s := s) bp o
      have ho := hos o List.mem_cons_self
      obtain ⟨hch, htr⟩ := ih (s.op bp o).1 fun o' h => hos o' (List.mem_cons_of_mem _ h)
      refine ⟨hch.trans (hl.channels m ho), fun v hv => ?_⟩
      rcases List.mem_append.mp hv with hv | hv
      · rw [hl.transfers v hv]
        exact ho
      · exact htr v hv

/-- The transfers of a node's parts are at its channel. -/
theorem runOps_transfers (bp : BackPressure) {x : Option Nat} (os : List Op) (s : Simulator)
    (hos : ∀ o ∈ os, o.memId = x) : ∀ v ∈ (runOps bp os s).2, v.memId = x := by
  induction os generalizing s with
  | nil => exact fun _ h => nomatch h
  | cons o os ih =>
      intro v hv
      rcases List.mem_append.mp hv with hv | hv
      · exact ((op_local bp o).transfers v hv).trans (hos o List.mem_cons_self)
      · exact ih _ (fun o' h => hos o' (List.mem_cons_of_mem _ h)) v hv

theorem channelOps_memId {m : Nat} {o : Op} (h : o ∈ channelOps m) : o.memId = some m := by
  simp only [channelOps, List.mem_cons, List.not_mem_nil, or_false] at h
  rcases h with rfl | rfl | rfl | rfl | rfl | rfl | rfl <;> rfl

theorem coreOps_memId {c : Nat} {o : Op} (h : o ∈ coreOps c) : o.memId = none := by
  simp only [coreOps, List.mem_cons, List.not_mem_nil, or_false] at h
  rcases h with rfl | rfl <;> rfl

/-- The turn of a node in the cycle, and the parts before and after it. -/
theorem ops_split (s : Simulator) {m : Nat} (hm : m < s.nMemories) :
    ∃ before after, s.ops = before ++ channelOps m ++ after ∧
      (∀ o ∈ before, o.memId ≠ some m) ∧ ∀ o ∈ after, o.memId ≠ some m := by
  obtain ⟨ms, ms', hsplit⟩ := List.append_of_mem (List.mem_range.mpr hm)
  have hnodup := List.nodup_range (n := s.nMemories)
  rw [hsplit] at hnodup
  obtain ⟨_, hnodup', hdisj⟩ := List.nodup_append.mp hnodup
  have hother : ∀ (l : List Nat), m ∉ l → ∀ o ∈ l.flatMap channelOps, o.memId ≠ some m := by
    intro l hl o ho
    obtain ⟨x, hx, hox⟩ := List.mem_flatMap.mp ho
    rw [channelOps_memId hox]
    intro heq
    rw [Option.some.inj heq] at hx
    exact hl hx
  refine ⟨(List.range s.nCores).flatMap coreOps ++ ms.flatMap channelOps,
    ms'.flatMap channelOps, ?_, ?_, ?_⟩
  · unfold ops
    rw [hsplit, List.flatMap_append, List.flatMap_cons]
    simp only [List.append_assoc]
  · intro o ho
    rcases List.mem_append.mp ho with ho | ho
    · obtain ⟨c, _, hoc⟩ := List.mem_flatMap.mp ho
      rw [coreOps_memId hoc]
      exact fun h => nomatch h
    · exact hother ms (fun hmem => hdisj m hmem m List.mem_cons_self rfl) o ho
  · exact hother ms' (fun hmem => (List.nodup_cons.mp hnodup').1 hmem)

/-- **A cycle does to a channel what the channel's turn does**, from a state with the same clock,
    the same holds and the same channel as before the cycle. -/
theorem cycle_turn (bp : BackPressure) (s : Simulator) {m : Nat} (hm : m < s.nMemories) :
    ∃ t, Steady s t ∧ t.channels m = s.channels m ∧
      (runOps bp s.ops s).1.channels m = (runOps bp (channelOps m) t).1.channels m ∧
      (runOps bp s.ops s).2.filter (fun v => v.memId = some m) =
        (runOps bp (channelOps m) t).2 := by
  obtain ⟨before, after, hsplit, hb, ha⟩ := s.ops_split hm
  obtain ⟨hbch, hbtr⟩ := runOps_apart bp before s hb
  refine ⟨(runOps bp before s).1, runOps_steady bp before s, hbch, ?_, ?_⟩
  · rw [hsplit, runOps_append, runOps_append]
    exact (runOps_apart bp after _ ha).1
  · rw [hsplit, runOps_append, runOps_append]
    generalize runOps bp before s = r₀ at hbtr
    have hown := runOps_transfers bp (channelOps m) r₀.1 fun o ho => channelOps_memId ho
    generalize runOps bp (channelOps m) r₀.1 = r₁ at hown
    have hatr := (runOps_apart bp after r₁.1 ha).2
    have hnone : ∀ e : List Transfer, (∀ v ∈ e, v.memId ≠ some m) →
        e.filter (fun v => v.memId = some m) = [] :=
      fun e he => List.filter_eq_nil_iff.mpr fun v hv => by simpa using he v hv
    have hall : r₁.2.filter (fun v => v.memId = some m) = r₁.2 :=
      List.filter_eq_self.mpr fun v hv => by simpa using hown v hv
    rw [List.filter_append, List.filter_append, hnone _ hbtr, hnone _ hatr, hall,
      List.nil_append, List.append_nil]

/-- A cycle leaves the channels alone that have no node. -/
theorem cycle_beyond (bp : BackPressure) (s : Simulator) {m : Nat} (hm : ¬ m < s.nMemories) :
    (runOps bp s.ops s).1.channels m = s.channels m ∧
      (runOps bp s.ops s).2.filter (fun v => v.memId = some m) = [] := by
  obtain ⟨hch, htr⟩ := runOps_apart bp (m := m) s.ops s (by
    intro o ho
    rcases List.mem_append.mp ho with ho | ho
    · obtain ⟨c, _, hoc⟩ := List.mem_flatMap.mp ho
      rw [coreOps_memId hoc]
      exact fun h => nomatch h
    · obtain ⟨x, hx, hox⟩ := List.mem_flatMap.mp ho
      rw [channelOps_memId hox]
      intro heq
      rw [Option.some.inj heq] at hx
      exact hm (List.mem_range.mp hx))
  exact ⟨hch, List.filter_eq_nil_iff.mpr fun v hv => by simpa using htr v hv⟩

/-- A transfer at a channel is one of its turn. -/
theorem cycle_transfer {bp : BackPressure} {s : Simulator} {v : Transfer} {m : Nat}
    (hv : v ∈ (runOps bp s.ops s).2) (hm : v.memId = some m) :
    m < s.nMemories ∧ ∃ t, Steady s t ∧ t.channels m = s.channels m ∧
      v ∈ (runOps bp (channelOps m) t).2 := by
  have hmem : v ∈ (runOps bp s.ops s).2.filter fun v => v.memId = some m :=
    List.mem_filter.mpr ⟨hv, by simpa using hm⟩
  by_cases hlt : m < s.nMemories
  · obtain ⟨t, hst, hch, _, htr⟩ := cycle_turn bp s hlt
    exact ⟨hlt, t, hst, hch, htr ▸ hmem⟩
  · rw [(cycle_beyond bp s hlt).2] at hmem
    cases hmem

/-! ## 4. What a turn does to its queues -/

/-- The parked request that the hold queue's turn releases. -/
def released (full : MemoryAccess → Bool) (m : Nat) (s : Simulator) : Option MemoryAccess :=
  match (s.channels m).pimHoldQueue with
  | [] => none
  | (deadline, front) :: _ =>
      if s.pim.active = true ∧ deadline ≤ s.coreCycles ∧ full front = false then some front
      else none

/-- The transfer of a release. -/
def releaseOf (s : Simulator) (m : Nat) (front : MemoryAccess) : Transfer where
  access := front.identity
  src := some (.hold m)
  dst := some (.dram m)
  npuCycle := s.coreCycles
  holdUntil := s.pim.holdUntil m

/-- The transfer of an issue. -/
def acceptOf (s : Simulator) (m : Nat) (front : MemoryAccess) (index : Option Nat)
    (landing : Landing) : Transfer where
  access := front.identity
  src := some (incomingPlace m index)
  dst := some (landing.place m)
  npuCycle := s.coreCycles
  holdUntil := s.pim.holdUntil m

/-- The hold queue after the issue of a request. -/
def heldAfter (s : Simulator) (front : MemoryAccess) (queue : List (Nat × MemoryAccess)) :
    Landing → List (Nat × MemoryAccess)
  | .hold cycles => queue ++ [(s.coreCycles + cycles, front)]
  | _ => queue

theorem released_congr {full : MemoryAccess → Bool} {m : Nat} (hst : Steady s s')
    (hch : s'.channels m = s.channels m) : s'.released full m = s.released full m := by
  unfold released
  rw [hch, hst.active, hst.coreCycles]

theorem released_eq_some {full : MemoryAccess → Bool} {m : Nat} {front : MemoryAccess} :
    s.released full m = some front ↔ ∃ e ∈ (s.channels m).pimHoldQueue.head?,
      s.pim.active = true ∧ e.1 ≤ s.coreCycles ∧ full e.2 = false ∧ e.2 = front := by
  unfold released
  cases (s.channels m).pimHoldQueue with
  | nil => simp
  | cons e rest =>
      obtain ⟨deadline, access⟩ := e
      simp only [List.head?_cons, Option.mem_some, exists_eq_left']
      split
      · next h => simp [h]
      · next h =>
          constructor
          · exact fun hn => nomatch hn
          · rintro ⟨h1, h2, h3, _⟩
            exact absurd ⟨h1, h2, h3⟩ h

/-- **The hold queue's turn**: its front goes to DRAM if it is released, and nothing else
    changes. -/
theorem drainHold_spec (full : MemoryAccess → Bool) (m : Nat) (s : Simulator) :
    (s.drainHold full m).2 = (s.released full m).toList.map (s.releaseOf m) ∧
      ((s.drainHold full m).1.channels m).pimHoldQueue =
        (s.channels m).pimHoldQueue.drop (s.released full m).toList.length ∧
      ((s.drainHold full m).1.channels m).waiting = (s.channels m).waiting := by
  unfold drainHold released
  cases hq : (s.channels m).pimHoldQueue with
  | nil => exact ⟨rfl, hq, rfl⟩
  | cons e rest =>
      obtain ⟨deadline, front⟩ := e
      dsimp only
      split
      · simp [releaseOf, (notePimCommandIssued_steady m _).2, updateChannel, dramPush,
          Channel.waiting]
      · exact ⟨rfl, hq, rfl⟩

/-- The command queue's refill keeps the order of arrival and the hold queue. -/
theorem refill_spec (m : Nat) (s : Simulator) :
    ((s.refill m).1.channels m).waiting = (s.channels m).waiting ∧
      ((s.refill m).1.channels m).pimHoldQueue = (s.channels m).pimHoldQueue ∧
      ∀ v ∈ (s.refill m).2, v.src = some (.icntOutput m) ∧ v.dst = some (.command m) := by
  refine refill_of_moved (R := fun s r => (r.1.channels m).waiting = (s.channels m).waiting ∧
      (r.1.channels m).pimHoldQueue = (s.channels m).pimHoldQueue ∧
      ∀ v ∈ r.2, v.src = some (.icntOutput m) ∧ v.dst = some (.command m))
    ⟨fun s => ⟨rfl, rfl, fun _ h => nomatch h⟩, ?_⟩ (fun s front icnt hq => ⟨?_, ?_, ?_⟩) s
  · rintro s s' s'' e e' ⟨hw, hh, ht⟩ ⟨hw', hh', ht'⟩
    refine ⟨hw'.trans hw, hh'.trans hh, fun v hv => ?_⟩
    rcases List.mem_append.mp hv with hv | hv
    · exact ht v hv
    · exact ht' v hv
  · simp [updateChannel, Channel.waiting, hq]
  · simp [updateChannel]
  · intro v hv
    rw [List.mem_singleton.mp hv]
    exact ⟨rfl, rfl⟩

/-- The waiting requests after one was taken. -/
def waitingAfter (ch : Channel) (index : Option Nat) : List MemoryAccess :=
  (takeIncoming index ch).waiting

/-- What an issue does to the queues: nothing, or it takes a request and puts it where it lands. -/
inductive Issues (s : Simulator) (full : MemoryAccess → Bool) (m : Nat) :
    Simulator × List Transfer → Prop where
  | none {t : Simulator} (hidle : ∀ r, s.incoming full m = some r → full r.1 = true)
      (hhold : (t.channels m).pimHoldQueue = (s.channels m).pimHoldQueue)
      (hwait : (t.channels m).waiting = (s.channels m).waiting) : Issues s full m (t, [])
  | one {t : Simulator} {front : MemoryAccess} {index : Option Nat} {landing : Landing}
      (hin : s.incoming full m = some (front, index)) (hfull : full front = false)
      (hlands : s.LandsAt m landing)
      (hhold : (t.channels m).pimHoldQueue =
        s.heldAfter front (s.channels m).pimHoldQueue landing)
      (hwait : (t.channels m).waiting = waitingAfter (s.channels m) index) :
      Issues s full m (t, [s.acceptOf m front index landing])

theorem LandsAt.congr {m : Nat} {landing : Landing} (hst : Steady s s')
    (h : s'.LandsAt m landing) : s.LandsAt m landing := by
  cases landing <;>
    simpa only [LandsAt, hst.isPimChannel, hst.holdUntil, hst.coreCycles] using h

theorem issue_spec (full : MemoryAccess → Bool) (m : Nat) (s : Simulator) :
    Issues s full m (s.issue full m) := by
  unfold issue
  have hst := noteTlmReadIssueWindow_steady m ((s.incoming full m).map Prod.fst) s
  have hch := noteTlmReadIssueWindow_channels m ((s.incoming full m).map Prod.fst) s
  dsimp only
  generalize s.noteTlmReadIssueWindow m ((s.incoming full m).map Prod.fst) = t at hst hch
  cases hin : s.incoming full m with
  | none => exact .none (fun r hr => by rw [hin] at hr; cases hr) (by rw [hch]) (by rw [hch])
  | some r =>
      obtain ⟨front, index⟩ := r
      dsimp only
      cases hfull : full front with
      | true =>
          rw [if_pos rfl]
          refine .none (fun r hr => ?_) (by rw [hch]) (by rw [hch])
          rw [hin] at hr
          cases hr
          exact hfull
      | false =>
          rw [if_neg Bool.false_ne_true]
          unfold accept
          have hroute := t.route_spec m front
          generalize t.route m front = r at hroute
          obtain ⟨landing, pim, ssrc⟩ := r
          dsimp only
          have htransfer : t.acceptOf m front index landing = s.acceptOf m front index landing := by
            unfold acceptOf
            rw [hst.coreCycles, hst.holdUntil]
          have hchannel : ∀ u : Simulator, u.channels = ({ t with pim := pim, ssrc := ssrc
              }.updateChannel m fun ch => takeIncoming index (t.land front ch landing)).channels →
              u.channels m = takeIncoming index (t.land front (s.channels m) landing) := by
            intro u hu
            rw [hu]
            simp [updateChannel, hch]
          show Issues s full m (_, [t.acceptOf m front index landing])
          rw [htransfer]
          refine .one hin hfull (hroute.lands.congr hst) ?_ ?_
          · rw [hchannel _ (by split <;> first | rfl | exact (notePimCommandIssued_steady m _).2)]
            cases index <;> cases landing <;>
              simp [takeIncoming, land, dramPush, heldAfter, hst.coreCycles]
          · rw [hchannel _ (by split <;> first | rfl | exact (notePimCommandIssued_steady m _).2)]
            cases index <;> cases landing <;> rfl

/-- A part that sends a response back, or does nothing: the hold queue and the waiting requests
    stay. -/
structure SendsBack (m : Nat) (s : Simulator) (r : Simulator × List Transfer) : Prop where
  hold : (r.1.channels m).pimHoldQueue = (s.channels m).pimHoldQueue
  waiting : (r.1.channels m).waiting = (s.channels m).waiting
  transfers : ∀ v ∈ r.2, (v.src = some (.aauBypass m) ∨ v.src = some (.ssrcBypass m) ∨
    v.src = some (.dram m)) ∧ ∃ node : Node, v.dst = some node.path

theorem SendsBack.nothing (m : Nat) (s : Simulator) : SendsBack m s (s, []) :=
  ⟨rfl, rfl, fun _ h => nomatch h⟩

theorem SendsBack.trans {m : Nat} {e e' : List Transfer} (h : SendsBack m s (s', e))
    (h' : SendsBack m s' (s'', e')) : SendsBack m s (s'', e ++ e') where
  hold := h'.hold.trans h.hold
  waiting := h'.waiting.trans h.waiting
  transfers v hv := (List.mem_append.mp hv).elim (h.transfers v) (h'.transfers v)

theorem sendBack_spec {m : Nat} {f : Channel → Channel} {p : Place} (response : MemoryAccess)
    (hp : p = .aauBypass m ∨ p = .ssrcBypass m ∨ p = .dram m)
    (hhold : ∀ ch, (f ch).pimHoldQueue = ch.pimHoldQueue)
    (hwait : ∀ ch, (f ch).waiting = ch.waiting) :
    SendsBack m s ((s.updateChannel m f).sendBack p response) := by
  have hch : ((s.updateChannel m f).sendBack p response).1.channels m = f (s.channels m) := by
    show ((s.updateChannel m f).icntPush response _).channels m = _
    rw [icntPush_channels]
    simp [updateChannel]
  refine ⟨by rw [hch, hhold], by rw [hch, hwait], fun v hv => ?_⟩
  rw [List.mem_singleton.mp hv]
  refine ⟨?_, _, rfl⟩
  rcases hp with rfl | rfl | rfl
  · exact .inl rfl
  · exact .inr (.inl rfl)
  · exact .inr (.inr rfl)

theorem drainBypass_spec (full : MemoryAccess → Bool) (m : Nat) (s : Simulator) :
    SendsBack m s (s.drainBypass full m) := by
  unfold drainBypass
  split
  · exact .nothing m s
  · split
    · exact sendBack_spec _ (.inl rfl) (fun _ => rfl) fun _ => rfl
    · exact .nothing m s

theorem drainSsrcBypass_spec (full : MemoryAccess → Bool) (m : Nat) (s : Simulator) :
    SendsBack m s (s.drainSsrcBypass full m) := by
  unfold drainSsrcBypass
  split
  · exact .nothing m s
  · split
    · exact sendBack_spec _ (.inr (.inl rfl)) (fun _ => rfl) fun _ => rfl
    · exact .nothing m s

theorem dramResponse_spec (full : MemoryAccess → Bool) (m : Nat) (s : Simulator) :
    SendsBack m s (s.dramResponse full m) := by
  unfold dramResponse
  split
  · exact .nothing m s
  · split
    · exact .nothing m s
    · exact sendBack_spec _ (.inr (.inr rfl)) (fun _ => rfl) fun _ => rfl

/-- **The turn of a node**: it releases what the hold queue has ready, refills the command queue,
    issues at most one request and sends answers back. `t` is the state before the issue. -/
structure TurnSpec (bp : BackPressure) (m : Nat) (s t : Simulator) (refilled issued back : List Transfer)
    (r : Simulator × List Transfer) : Prop where
  steady : Steady s t
  transfers : r.2 = (s.released (bp.holdDramFull m) m).toList.map (s.releaseOf m) ++ refilled ++
    issued ++ back
  refill : ∀ v ∈ refilled, v.src = some (.icntOutput m) ∧ v.dst = some (.command m)
  hold : (t.channels m).pimHoldQueue =
    (s.channels m).pimHoldQueue.drop (s.released (bp.holdDramFull m) m).toList.length
  waiting : (t.channels m).waiting = (s.channels m).waiting
  issue : t.Issues (bp.issueDramFull m) m (r.1, issued)
  answers : ∀ v ∈ back, (v.src = some (.aauBypass m) ∨ v.src = some (.ssrcBypass m) ∨
    v.src = some (.dram m)) ∧ ∃ node : Node, v.dst = some node.path

/-- The release is the only transfer of a turn out of the hold queue. -/
theorem TurnSpec.only_release {bp : BackPressure} {m : Nat} {t : Simulator}
    {refilled issued back : List Transfer} {r : Simulator × List Transfer}
    (h : TurnSpec bp m s t refilled issued back r) :
    ∀ v ∈ refilled ++ issued ++ back, v.src ≠ some (.hold m) := by
  intro v hv hsrc
  rcases List.mem_append.mp hv with hv | hv
  · rcases List.mem_append.mp hv with hv | hv
    · rw [(h.refill v hv).1] at hsrc
      cases hsrc
    · have hissue := h.issue
      generalize hr : (r.1, issued) = r' at hissue
      cases hissue with
      | none =>
          cases hr
          cases hv
      | @one _ _ index _ _ _ _ _ _ =>
          cases hr
          rw [List.mem_singleton.mp hv] at hsrc
          cases index <;> cases hsrc
  · rcases (h.answers v hv).1 with h | h | h <;> rw [h] at hsrc <;> cases hsrc

/-- **What a turn brings into DRAM** is what it releases or what it issues with no hold left. -/
theorem TurnSpec.into_dram {bp : BackPressure} {m x : Nat} {t : Simulator}
    {refilled issued back : List Transfer} {r : Simulator × List Transfer} {v : Transfer}
    (h : TurnSpec bp m s t refilled issued back r) (hv : v ∈ r.2) (hd : v.dst = some (.dram x)) :
    x = m ∧ ((∃ front, s.released (bp.holdDramFull m) m = some front ∧ v = s.releaseOf m front) ∨
      (s.isPimChannel m = true → s.pim.holdUntil m ≤ s.coreCycles) ∧
        v.npuCycle = s.coreCycles ∧ v.holdUntil = s.pim.holdUntil m) := by
  rw [h.transfers] at hv
  simp only [List.append_assoc, List.mem_append] at hv
  rcases hv with hv | hv | hv | hv
  · obtain ⟨front, hfront, rfl⟩ := List.mem_map.mp hv
    cases hd
    exact ⟨rfl, .inl ⟨front, Option.mem_toList.mp hfront, rfl⟩⟩
  · rw [(h.refill v hv).2] at hd
    cases hd
  · have hissue := h.issue
    generalize hr : (r.1, issued) = r' at hissue
    cases hissue with
    | none =>
        cases hr
        cases hv
    | @one _ _ _ landing _ _ hlands _ _ =>
        cases hr
        obtain rfl := List.mem_singleton.mp hv
        have hlands' := hlands.congr h.steady
        cases landing <;> cases hd
        exact ⟨rfl, .inr ⟨hlands', h.steady.coreCycles, h.steady.holdUntil m⟩⟩
  · obtain ⟨node, hnode⟩ := (h.answers v hv).2
    rw [hnode] at hd
    cases node <;> cases hd

theorem turn_spec (bp : BackPressure) (m : Nat) (s : Simulator) :
    ∃ t refilled issued back,
      TurnSpec bp m s t refilled issued back (runOps bp (channelOps m) s) := by
  obtain ⟨hst₁, hch₁⟩ := s.notePimCommandCandidate_steady m
  generalize hs₁ : s.notePimCommandCandidate m = s₁ at hst₁ hch₁
  have hrel : s₁.released (bp.holdDramFull m) m = s.released (bp.holdDramFull m) m :=
    released_congr hst₁ (by rw [hch₁])
  have hof : s₁.releaseOf m = s.releaseOf m := by
    funext front
    unfold releaseOf
    rw [hst₁.coreCycles, hst₁.holdUntil]
  obtain ⟨htr₂, hhold₂, hwait₂⟩ := s₁.drainHold_spec (bp.holdDramFull m) m
  have hst₂ := (drainHold_local (s := s₁) (bp.holdDramFull m) m).steady
  generalize hr₂ : s₁.drainHold (bp.holdDramFull m) m = r₂ at htr₂ hhold₂ hwait₂ hst₂
  obtain ⟨hwait₃, hhold₃, htr₃⟩ := r₂.1.refill_spec m
  have hst₃ := (refill_local (s := r₂.1) m).steady
  generalize hr₃ : r₂.1.refill m = r₃ at hwait₃ hhold₃ htr₃ hst₃
  have hissue := r₃.1.issue_spec (bp.issueDramFull m) m
  generalize hr₄ : r₃.1.issue (bp.issueDramFull m) m = r₄ at hissue
  have hback₁ := drainBypass_spec (bp.bypassIcntFull m) m r₄.1
  generalize hd₁ : r₄.1.drainBypass (bp.bypassIcntFull m) m = d₁ at hback₁
  have hback₂ := drainSsrcBypass_spec (bp.ssrcBypassIcntFull m) m d₁.1
  generalize hd₂ : d₁.1.drainSsrcBypass (bp.ssrcBypassIcntFull m) m = d₂ at hback₂
  have hback₃ := dramResponse_spec (bp.responseIcntFull m) m d₂.1
  generalize hd₃ : d₂.1.dramResponse (bp.responseIcntFull m) m = d₃ at hback₃
  have hback : SendsBack m r₄.1 (d₃.1, (d₁.2 ++ d₂.2) ++ d₃.2) :=
    (hback₁.trans hback₂).trans hback₃
  have hrun : runOps bp (channelOps m) s =
      (d₃.1, r₂.2 ++ r₃.2 ++ r₄.2 ++ ((d₁.2 ++ d₂.2) ++ d₃.2)) := by
    simp only [runOps, channelOps, op, hs₁, hr₂, hr₃, hr₄, hd₁, hd₂, hd₃, List.nil_append,
      List.append_nil, List.append_assoc]
  rw [hrun]
  refine ⟨r₃.1, r₃.2, r₄.2, _, ⟨(hst₁.trans hst₂).trans hst₃, ?_, htr₃, ?_, ?_, ?_,
    hback.transfers⟩⟩
  · rw [htr₂, hrel, hof]
  · rw [hhold₃, hhold₂, hrel, hch₁]
  · rw [hwait₃, hwait₂, hch₁]
  · cases hissue with
    | none hidle hhold hwait =>
        exact .none hidle (hback.hold.trans hhold) (hback.waiting.trans hwait)
    | one hin hfull hlands hhold hwait =>
        exact .one hin hfull hlands (hback.hold.trans hhold) (hback.waiting.trans hwait)

/-- A transfer of a cycle into a place of a channel is one of a turn. -/
theorem cycle_turn_of {bp : BackPressure} {v : Transfer} {p : Place} {m : Nat}
    (hv : v ∈ (runOps bp s.ops s).2) (hdst : v.dst = some p) (hp : p.memId = some m) :
    ∃ x t₀ t refilled issued back, v.memId = some x ∧ x < s.nMemories ∧ Steady s t₀ ∧
      t₀.channels x = s.channels x ∧ v ∈ (runOps bp (channelOps x) t₀).2 ∧
      TurnSpec bp x t₀ t refilled issued back (runOps bp (channelOps x) t₀) := by
  obtain ⟨x, hx⟩ : ∃ x, v.memId = some x := by
    unfold Transfer.memId
    rw [hdst, Option.bind_some, hp]
    cases v.src.bind Place.memId with
    | none => exact ⟨m, rfl⟩
    | some x => exact ⟨x, rfl⟩
  obtain ⟨hlt, t₀, hst, hch, hmem⟩ := cycle_transfer hv hx
  obtain ⟨t, refilled, issued, back, hturn⟩ := turn_spec bp x t₀
  exact ⟨x, t₀, t, refilled, issued, back, hx, hlt, hst, hch, hmem, hturn⟩

/-! ## 5. What happens between the cycles -/

/-- The overlay after an act. -/
def pimAfter (s : Simulator) : MemoryAct → PIMBackend
  | .pimCycle => s.pim.cycle s.coreCycles
  | .requestGtsuSwitch cid newMode npuCycle => (s.pim.requestGtsuSwitch cid newMode npuCycle).2
  | .switchAllPimTo newMode npuCycle => (s.pim.switchAllPimTo newMode npuCycle).2
  | .scheduleHold cid untilNpuCycle => s.pim.scheduleHold cid untilNpuCycle
  | _ => s.pim

theorem pimAfter_extends (s : Simulator) (a : MemoryAct) : s.pim.Extends (s.pimAfter a) := by
  cases a with
  | pimCycle => exact (s.pim.cycle_extends s.coreCycles).1
  | requestGtsuSwitch cid newMode npuCycle =>
      exact s.pim.requestGtsuSwitch_extends cid newMode npuCycle
  | switchAllPimTo newMode npuCycle => exact s.pim.switchAllPimTo_extends newMode npuCycle
  | scheduleHold cid untilNpuCycle => exact s.pim.scheduleHold_extends cid untilNpuCycle
  | _ => exact .refl s.pim

/-- The requests that arrive at a node, in order. -/
def arrivalsAt (m : Nat) (h : List Transfer) : List MemoryAccess :=
  (h.filter fun v => v.dst = some (.icntOutput m)).map Transfer.access

/-- **Between the cycles** the memory side stands still: nothing counts, nothing enters or leaves
    it, and what waits at a node grows by what arrives. -/
structure Between (s : Simulator) (a : MemoryAct) (r : Simulator × List Transfer) : Prop where
  config : r.1.config = s.config
  pim : r.1.pim = s.pimAfter a
  coreCycles : s.coreCycles ≤ r.1.coreCycles
  toMem : r.1.totNrToMem = s.totNrToMem
  fromMem : r.1.totNrFromMem = s.totNrFromMem
  stats : r.1.pimCmdStats = s.pimCmdStats
  hold : ∀ m, (r.1.channels m).pimHoldQueue = (s.channels m).pimHoldQueue
  waiting : ∀ m, (r.1.channels m).waiting.map MemoryAccess.identity =
    (s.channels m).waiting.map MemoryAccess.identity ++ arrivalsAt m r.2
  transfers : ∀ v ∈ r.2, v.src.any Place.inMemory = false ∧ v.dst.any Place.inMemory = false

/-- Nothing moves and the channels stay. -/
theorem Between.quiet {a : MemoryAct} (hconfig : s'.config = s.config) (hpim : s'.pim = s.pimAfter a)
    (hclock : s.coreCycles ≤ s'.coreCycles) (hto : s'.totNrToMem = s.totNrToMem)
    (hfrom : s'.totNrFromMem = s.totNrFromMem) (hstats : s'.pimCmdStats = s.pimCmdStats)
    (hch : s'.channels = s.channels) : Between s a (s', []) where
  config := hconfig
  pim := hpim
  coreCycles := hclock
  toMem := hto
  fromMem := hfrom
  stats := hstats
  hold m := by rw [hch]
  waiting m := by
    rw [hch]
    exact (List.append_nil _).symm
  transfers _ h := nomatch h

theorem request_between {a : MemoryAct} (ha : s.pimAfter a = s.pim) (coreId : Nat)
    (access : MemoryAccess) (f : Core → Core) : Between s a (s.request coreId access f) where
  config := rfl
  pim := ha.symm
  coreCycles := Nat.le_refl _
  toMem := rfl
  fromMem := rfl
  stats := rfl
  hold _ := rfl
  waiting _ := (List.append_nil _).symm
  transfers v hv := by
    rw [List.mem_singleton.mp hv]
    exact ⟨rfl, rfl⟩

theorem deliver_between {node : Node} {index : Nat} {r : Simulator × List Transfer}
    (hr : s.deliver index node = some r) : Between s (.deliver node index) r := by
  cases node with
  | core coreId =>
      obtain ⟨access, _, rfl⟩ := Option.map_eq_some_iff.mp hr
      exact ⟨rfl, rfl, Nat.le_refl _, rfl, rfl, rfl, fun _ => rfl,
        fun _ => (List.append_nil _).symm, fun v hv => by
          rw [List.mem_singleton.mp hv]
          exact ⟨rfl, rfl⟩⟩
  | memory memId =>
      obtain ⟨access, _, rfl⟩ := Option.map_eq_some_iff.mp hr
      refine ⟨rfl, rfl, Nat.le_refl _, rfl, rfl, rfl, fun m => ?_, fun m => ?_, fun v hv => by
          rw [List.mem_singleton.mp hv]
          exact ⟨rfl, rfl⟩⟩
      · by_cases hm : m = memId
        · subst hm
          simp [updateChannel]
        · simp [updateChannel, Function.update_of_ne hm]
      · by_cases hm : m = memId
        · subst hm
          simp [updateChannel, Channel.waiting, arrivalsAt]
        · simp [updateChannel, Function.update_of_ne hm, arrivalsAt, Ne.symm hm]

/-- **Every act but the cycle is between the cycles.** -/
theorem exec_between {a : MemoryAct} {r : Simulator × List Transfer} (hr : s.exec a = some r)
    (ha : ∀ bp, a ≠ .icntCycle bp) : Between s a r := by
  cases a with
  | load coreId slot access =>
      obtain ⟨_, heq⟩ := Option.ite_none_right_eq_some.mp hr
      cases heq
      exact request_between rfl _ _ _
  | store coreId access =>
      obtain ⟨_, heq⟩ := Option.ite_none_right_eq_some.mp hr
      cases heq
      exact request_between rfl _ _ _
  | deliver node index => exact deliver_between hr
  | answer memId index =>
      obtain ⟨_, hanswer, heq⟩ := Option.map_eq_some_iff.mp hr
      obtain ⟨access, _, heq'⟩ := Option.map_eq_some_iff.mp hanswer
      cases heq'
      cases heq
      refine ⟨rfl, rfl, Nat.le_refl _, rfl, rfl, rfl, fun m => ?_, fun m => ?_, fun _ h => nomatch h⟩
      · by_cases hm : m = memId
        · subst hm
          simp [updateChannel]
        · simp [updateChannel, Function.update_of_ne hm]
      · by_cases hm : m = memId
        · subst hm
          simp [updateChannel, Channel.waiting, arrivalsAt]
        · simp [updateChannel, Function.update_of_ne hm, arrivalsAt]
  | coreCycle =>
      cases hr
      exact .quiet rfl rfl (Nat.le_succ _) rfl rfl rfl rfl
  | icntCycle bp => exact absurd rfl (ha bp)
  | _ =>
      cases hr
      exact .quiet rfl rfl (Nat.le_refl _) rfl rfl rfl rfl

/-- No act changes which channels are PIM. -/
theorem exec_isPimChannel {a : MemoryAct} {r : Simulator × List Transfer}
    (hr : s.exec a = some r) (m : Nat) : r.1.isPimChannel m = s.isPimChannel m := by
  by_cases ha : ∃ bp, a = .icntCycle bp
  · obtain ⟨bp, rfl⟩ := ha
    cases hr
    exact (runOps_steady bp s.ops s).isPimChannel m
  · have hb := exec_between hr fun bp heq => ha ⟨bp, heq⟩
    have hx := s.pimAfter_extends a
    unfold Simulator.isPimChannel PIMBackend.isPimChannel
    rw [hb.pim, hx.active, hx.isPim]

end Simulator

end Ahasd
