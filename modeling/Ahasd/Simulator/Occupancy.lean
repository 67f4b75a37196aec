/-
  File:      Ahasd/Simulator/Occupancy.lean
  Subject:   WHICH QUEUES A RUN FILLS.

  * `overlay_occupied`: the command queue, the hold queue and the bypass queues are empty but on a
    PIM channel;
  * `beyond_empty`: a node beyond the DRAM channels has nothing, and nothing is on its way to it.
-/
import Ahasd.Simulator.ArrivalOrder

namespace Ahasd

open Transition

/-- The queues that only the PIM overlay fills. -/
def Place.overlay : Place → Bool
  | command _ | hold _ | aauBypass _ | ssrcBypass _ => true
  | _ => false

theorem Node.path_overlay (node : Node) : node.path.overlay = false := by
  cases node <;> rfl

namespace Simulator

variable {s s' s'' : Simulator}

/-! ## 1. The queues of the overlay -/

/-- What goes into a queue of the overlay, goes there on a PIM channel. -/
structure ToPim (s : Simulator) (r : Simulator × List Transfer) : Prop where
  steady : Steady s r.1
  transfers : ∀ v ∈ r.2, ∀ p, v.dst = some p → p.overlay = true →
    ∃ m, p.memId = some m ∧ s.isPimChannel m = true

theorem ToPim.none {e : List Transfer} (hst : Steady s s')
    (he : ∀ v ∈ e, ∀ p, v.dst = some p → p.overlay = false) : ToPim s (s', e) :=
  ⟨hst, fun v hv p hdst hp => by rw [he v hv p hdst] at hp; cases hp⟩

theorem ToPim.composes : Composes ToPim where
  nothing s := .none (.refl s) fun _ h => nomatch h
  trans h h' := by
    refine ⟨h.steady.trans h'.steady, fun v hv p hdst hp => ?_⟩
    rcases List.mem_append.mp hv with hv | hv
    · exact h.transfers v hv p hdst hp
    · obtain ⟨m, hm, hpim⟩ := h'.transfers v hv p hdst hp
      exact ⟨m, hm, by rw [← h.steady.isPimChannel m, hpim]⟩

/-- A response is sent back to a core, or a request to a node, never into the overlay. -/
theorem SendsBack.toPim {m : Nat} {r : Simulator × List Transfer} (hst : Steady s r.1)
    (h : SendsBack m s r) : ToPim s r := by
  refine ⟨hst, fun v hv p hdst hp => ?_⟩
  obtain ⟨node, hnode⟩ := (h.transfers v hv).2
  rw [hnode] at hdst
  cases hdst
  rw [node.path_overlay] at hp
  cases hp

/-- What a core does concerns no channel. -/
theorem Local.toPim {r : Simulator × List Transfer} (h : Local none s r) : ToPim s r := by
  refine ⟨h.steady, fun v hv p hdst hp => ?_⟩
  have hnone := h.transfers v hv
  unfold Transfer.memId at hnone
  rw [hdst, Option.bind_some, Option.or_eq_none_iff] at hnone
  cases p <;> first | exact Bool.noConfusion hp | exact nomatch hnone.2

theorem refill_toPim (m : Nat) (s : Simulator) : ToPim s (s.refill m) := by
  by_cases hpim : s.isPimChannel m = true
  · refine ⟨(refill_local m).steady, fun v hv p hdst _ => ?_⟩
    rw [((s.refill_spec m).2.2 v hv).2] at hdst
    cases hdst
    exact ⟨m, rfl, hpim⟩
  · unfold refill
    rw [if_neg hpim]
    exact ToPim.composes.nothing s

theorem issue_toPim (full : MemoryAccess → Bool) (m : Nat) (s : Simulator) :
    ToPim s (s.issue full m) := by
  have hst := (issue_local (s := s) full m).steady
  have hissue := s.issue_spec full m
  generalize s.issue full m = r at hst hissue
  cases hissue with
  | none => exact .none hst fun _ h => nomatch h
  | @one _ front index landing _ _ hlands =>
      refine ⟨hst, fun v hv p hdst hp => ?_⟩
      rw [List.mem_singleton.mp hv] at hdst
      cases hdst
      cases landing with
      | dram => cases hp
      | hold cycles => exact ⟨m, rfl, hlands.1⟩
      | ssrcBypass | aauBypass => exact ⟨m, rfl, hlands⟩

theorem op_toPim (bp : BackPressure) (s : Simulator) (o : Op) : ToPim s (s.op bp o) := by
  have hst := (op_local (s := s) bp o).steady
  cases o with
  | coreRequest coreId => exact (coreRequest_local (bp.coreIcntFull coreId) coreId).toPim
  | coreResponse coreId => exact (coreResponse_local coreId).toPim
  | noteCandidate m => exact .none hst fun _ h => nomatch h
  | drainHold m =>
      refine .none hst fun v hv p hdst => ?_
      have hv' : v ∈ (s.drainHold (bp.holdDramFull m) m).2 := hv
      rw [(s.drainHold_spec (bp.holdDramFull m) m).1] at hv'
      obtain ⟨front, -, rfl⟩ := List.mem_map.mp hv'
      cases hdst
      rfl
  | refill m => exact s.refill_toPim m
  | issue m => exact s.issue_toPim (bp.issueDramFull m) m
  | drainBypass m => exact (s.drainBypass_spec (bp.bypassIcntFull m) m).toPim hst
  | drainSsrcBypass m => exact (s.drainSsrcBypass_spec (bp.ssrcBypassIcntFull m) m).toPim hst
  | dramResponse m => exact (s.dramResponse_spec (bp.responseIcntFull m) m).toPim hst

theorem exec_toPim {a : MemoryAct} {r : Simulator × List Transfer} (hr : s.exec a = some r) :
    ∀ v ∈ r.2, ∀ p, v.dst = some p → p.overlay = true →
      ∃ m, p.memId = some m ∧ s.isPimChannel m = true := by
  cases a with
  | icntCycle bp =>
      cases hr
      exact (runOps_of_op ToPim.composes (op_toPim bp) s.ops s).transfers
  | load coreId tile access =>
      obtain ⟨_, heq⟩ := Option.ite_none_right_eq_some.mp hr
      cases heq
      intro v hv p hdst hp
      rw [List.mem_singleton.mp hv] at hdst
      cases hdst
      cases hp
  | store coreId access =>
      obtain ⟨_, heq⟩ := Option.ite_none_right_eq_some.mp hr
      cases heq
      intro v hv p hdst hp
      rw [List.mem_singleton.mp hv] at hdst
      cases hdst
      cases hp
  | deliver node index =>
      cases node <;>
      · obtain ⟨access, _, rfl⟩ := Option.map_eq_some_iff.mp hr
        intro v hv p hdst hp
        rw [List.mem_singleton.mp hv] at hdst
        cases hdst
        cases hp
  | answer memId index =>
      obtain ⟨_, _, heq⟩ := Option.map_eq_some_iff.mp hr
      cases heq
      exact fun _ h => nomatch h
  | _ =>
      cases hr
      exact fun _ h => nomatch h

/-! ## 2. The nodes beyond the channels -/

/-- Nothing new is on its way to a node, if no address has its channel. -/
structure NotTo (m : Nat) (s : Simulator) (r : Simulator × List Transfer) : Prop where
  channelId : r.1.channelId = s.channelId
  toMemory : (∀ address, s.channelId address ≠ m) → r.1.toMemory m = s.toMemory m

theorem NotTo.composes (m : Nat) : Composes (NotTo m) where
  nothing _ := ⟨rfl, fun _ => rfl⟩
  trans h h' := ⟨h'.channelId.trans h.channelId, fun hid =>
    (h'.toMemory fun address => by rw [h.channelId]; exact hid address).trans (h.toMemory hid)⟩

/-- Counters and channels do not matter. -/
theorem NotTo.of_eq {m : Nat} {e : List Transfer} (hid : s'.channelId = s.channelId)
    (hto : s'.toMemory = s.toMemory) : NotTo m s (s', e) :=
  ⟨hid, fun _ => by rw [hto]⟩

theorem icntPush_notTo (m : Nat) (s : Simulator) (access : MemoryAccess) :
    NotTo m s (s.icntPush access (s.getDestNode access), []) := by
  unfold getDestNode
  split
  · refine ⟨rfl, fun hid => ?_⟩
    exact Function.update_of_ne (fun heq => hid _ heq.symm) _ _
  · exact .of_eq rfl rfl

theorem notePimCommandIssued_paths (m : Nat) (s : Simulator) :
    (s.notePimCommandIssued m).channelId = s.channelId ∧
      (s.notePimCommandIssued m).toMemory = s.toMemory := by
  unfold notePimCommandIssued
  split <;> exact ⟨rfl, rfl⟩

theorem accept_paths (m : Nat) (front : MemoryAccess) (index : Option Nat) (s : Simulator) :
    (s.accept m front index).1.channelId = s.channelId ∧
      (s.accept m front index).1.toMemory = s.toMemory := by
  unfold accept
  generalize s.route m front = r
  obtain ⟨landing, pim, ssrc⟩ := r
  dsimp only
  split
  · exact notePimCommandIssued_paths m _
  · exact ⟨rfl, rfl⟩

theorem issue_paths (full : MemoryAccess → Bool) (m : Nat) (s : Simulator) :
    (s.issue full m).1.channelId = s.channelId ∧ (s.issue full m).1.toMemory = s.toMemory := by
  unfold issue
  dsimp only
  have hnote : ∀ selected, (s.noteTlmReadIssueWindow m selected).channelId = s.channelId ∧
      (s.noteTlmReadIssueWindow m selected).toMemory = s.toMemory := by
    intro selected
    unfold noteTlmReadIssueWindow
    split
    · exact ⟨rfl, rfl⟩
    · split <;> exact ⟨rfl, rfl⟩
  obtain ⟨hid, hto⟩ := hnote ((s.incoming full m).map Prod.fst)
  generalize s.noteTlmReadIssueWindow m ((s.incoming full m).map Prod.fst) = t at hid hto
  cases s.incoming full m with
  | none => exact ⟨hid, hto⟩
  | some r =>
      dsimp only
      split
      · exact ⟨hid, hto⟩
      · obtain ⟨hid', hto'⟩ := accept_paths m r.1 r.2 t
        exact ⟨hid'.trans hid, hto'.trans hto⟩

theorem sendBack_notTo (m : Nat) (src : Place) (response : MemoryAccess) (x : Nat)
    (f : Channel → Channel) (s : Simulator) :
    NotTo m s ((s.updateChannel x f).sendBack src response) := by
  obtain ⟨hid, hto⟩ := icntPush_notTo m (s.updateChannel x f) response
  exact ⟨hid, hto⟩

theorem op_notTo (bp : BackPressure) (m : Nat) (s : Simulator) (o : Op) :
    NotTo m s (s.op bp o) := by
  cases o with
  | coreRequest coreId =>
      show NotTo m s (s.coreRequest (bp.coreIcntFull coreId) coreId)
      unfold coreRequest
      split
      · exact (NotTo.composes m).nothing s
      · next access rest hq =>
          dsimp only
          split
          · exact .of_eq rfl rfl
          · obtain ⟨hid, hto⟩ := icntPush_notTo m s { access with coreId := coreId }
            exact ⟨hid, hto⟩
  | coreResponse coreId =>
      show NotTo m s (s.coreResponse coreId)
      unfold coreResponse
      split
      · exact (NotTo.composes m).nothing s
      · exact .of_eq rfl rfl
  | noteCandidate memId =>
      show NotTo m s (s.notePimCommandCandidate memId, [])
      unfold notePimCommandCandidate
      dsimp only
      split <;> exact .of_eq rfl rfl
  | drainHold memId =>
      show NotTo m s (s.drainHold (bp.holdDramFull memId) memId)
      unfold drainHold
      split
      · exact (NotTo.composes m).nothing s
      · dsimp only
        split
        · obtain ⟨hid, hto⟩ := notePimCommandIssued_paths memId
            (s.updateChannel memId fun ch => dramPush _ { ch with pimHoldQueue := _ })
          exact .of_eq hid hto
        · exact (NotTo.composes m).nothing s
  | refill memId =>
      exact refill_of_moved (NotTo.composes m) (fun _ _ _ _ => .of_eq rfl rfl) s
  | issue memId =>
      obtain ⟨hid, hto⟩ := issue_paths (bp.issueDramFull memId) memId s
      exact .of_eq hid hto
  | drainBypass memId =>
      show NotTo m s (s.drainBypass (bp.bypassIcntFull memId) memId)
      unfold drainBypass
      split
      · exact (NotTo.composes m).nothing s
      · split
        · exact sendBack_notTo m _ _ memId _ s
        · exact (NotTo.composes m).nothing s
  | drainSsrcBypass memId =>
      show NotTo m s (s.drainSsrcBypass (bp.ssrcBypassIcntFull memId) memId)
      unfold drainSsrcBypass
      split
      · exact (NotTo.composes m).nothing s
      · split
        · exact sendBack_notTo m _ _ memId _ s
        · exact (NotTo.composes m).nothing s
  | dramResponse memId =>
      show NotTo m s (s.dramResponse (bp.responseIcntFull memId) memId)
      unfold dramResponse
      split
      · exact (NotTo.composes m).nothing s
      · split
        · exact (NotTo.composes m).nothing s
        · exact sendBack_notTo m _ _ memId _ s

/-- Every address has a channel, and the nodes beyond the channels have nothing. -/
structure Beyond (s : Simulator) : Prop where
  channelId : ∀ address, s.channelId address < s.nMemories
  channels : ∀ m, s.nMemories ≤ m → s.channels m = {}
  toMemory : ∀ m, s.nMemories ≤ m → s.toMemory m = []

/-- Channels below the number stay, and so does what is on its way. -/
theorem Beyond.of_eq (hb : s.Beyond) (hconfig : s'.config = s.config)
    (hid : s'.channelId = s.channelId)
    (hch : ∀ m, s.nMemories ≤ m → s'.channels m = s.channels m)
    (hto : ∀ m, s.nMemories ≤ m → s'.toMemory m = s.toMemory m) : s'.Beyond := by
  have hn : s'.nMemories = s.nMemories := by
    unfold nMemories
    rw [hconfig]
  refine ⟨fun address => ?_, fun m hm => ?_, fun m hm => ?_⟩
  · rw [hn, hid]
    exact hb.channelId address
  · rw [hn] at hm
    rw [hch m hm, hb.channels m hm]
  · rw [hn] at hm
    rw [hto m hm, hb.toMemory m hm]

theorem Beyond.exec (hb : s.Beyond) {a : MemoryAct} {r : Simulator × List Transfer}
    (hr : s.exec a = some r) : r.1.Beyond := by
  cases a with
  | icntCycle bp =>
      cases hr
      have hnot := fun m => runOps_of_op (NotTo.composes m) (op_notTo bp m) s.ops s
      refine hb.of_eq (runOps_steady bp s.ops s).config (hnot 0).channelId (fun m hm => ?_)
        fun m hm => ?_
      · exact (cycle_beyond bp s (Nat.not_lt.mpr hm)).1
      · exact (hnot m).toMemory fun address heq => by
          have hlt := hb.channelId address
          omega
  | deliver node index =>
      cases node with
      | core coreId =>
          obtain ⟨access, -, rfl⟩ := Option.map_eq_some_iff.mp hr
          exact hb.of_eq rfl rfl (fun _ _ => rfl) fun _ _ => rfl
      | memory memId =>
          obtain ⟨access, hi, rfl⟩ := Option.map_eq_some_iff.mp hr
          have hlt : memId < s.nMemories := by
            by_contra hge
            rw [hb.toMemory memId (Nat.not_lt.mp hge)] at hi
            cases hi
          refine hb.of_eq rfl rfl (fun m hm => ?_) fun m hm => ?_
          · exact Function.update_of_ne (by omega) _ _
          · exact Function.update_of_ne (by omega) _ _
  | answer memId index =>
      obtain ⟨t, ht, heq⟩ := Option.map_eq_some_iff.mp hr
      obtain ⟨access, hi, rfl⟩ := Option.map_eq_some_iff.mp ht
      cases heq
      have hlt : memId < s.nMemories := by
        by_contra hge
        rw [hb.channels memId (Nat.not_lt.mp hge)] at hi
        cases hi
      refine hb.of_eq rfl rfl (fun m hm => ?_) fun _ _ => rfl
      exact Function.update_of_ne (by omega) _ _
  | load coreId slot access | store coreId access =>
      obtain ⟨_, heq⟩ := Option.ite_none_right_eq_some.mp hr
      cases heq
      exact hb.of_eq rfl rfl (fun _ _ => rfl) fun _ _ => rfl
  | _ =>
      cases hr
      exact hb.of_eq rfl rfl (fun _ _ => rfl) fun _ _ => rfl

end Simulator

/-! ## 3. Whole runs -/

/-- **Only a PIM channel has requests in the queues of the overlay.** -/
theorem overlay_occupied (c : MemorySetup) {as : List MemoryAct} {s : Simulator}
    {h : List Transfer} (hr : c.run as = some (s, h)) {p : Place} (hp : p.overlay = true)
    (hne : s.contents p ≠ []) : ∃ m, p.memId = some m ∧ s.isPimChannel m = true := by
  have hall : ∀ v ∈ h, ∀ p, v.dst = some p → p.overlay = true →
      ∃ m, p.memId = some m ∧ s.isPimChannel m = true := by
    refine (exec_of_run hr).invariant (P := fun s h => ∀ v ∈ h, ∀ p, v.dst = some p →
      p.overlay = true → ∃ m, p.memId = some m ∧ s.isPimChannel m = true)
      (fun _ hv => nomatch hv) ?_
    intro t h a t' ih hs v hv p hdst hp
    obtain ⟨e, he, hobs⟩ := Simulator.machine_step hs
    rw [hobs] at hv
    have hpim := Simulator.exec_isPimChannel he
    obtain ⟨m, hm, htrue⟩ := (List.mem_append.mp hv).elim (fun hv => ih v hv p hdst hp)
      fun hv => Simulator.exec_toPim he v hv p hdst hp
    exact ⟨m, hm, (hpim m).trans htrue⟩
  obtain ⟨access, hmem⟩ := List.exists_mem_of_ne_nil _ hne
  obtain ⟨w, hw, -, hdst⟩ := (MemorySetup.account hr).flow.came_to (Simulator.marking_pos hmem)
  obtain ⟨v, hv, rfl⟩ := List.mem_map.mp hw
  exact hall v hv p hdst hp

/-- **A node beyond the channels has nothing.** -/
theorem beyond_empty (c : MemorySetup) (hid : ∀ address, c.channelId address < c.config.dramChannels)
    {as : List MemoryAct} {s : Simulator} {h : List Transfer} (hr : c.run as = some (s, h)) :
    s.Beyond := by
  refine (exec_of_run hr).invariantOn (P := Simulator.Beyond)
    ⟨hid, fun _ _ => rfl, fun _ _ => rfl⟩ ?_
  intro t a t' ht hs
  obtain ⟨e, he, -⟩ := Simulator.machine_step hs
  exact ht.exec he

end Ahasd
