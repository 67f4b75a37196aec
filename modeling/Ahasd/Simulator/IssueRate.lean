/-
  File:      Ahasd/Simulator/IssueRate.lean
  Subject:   THE PIM COMMAND ISSUE RATE: the issued commands against the candidate slots.

  A turn of a PIM channel counts one slot when it starts with something parked or waiting, and an
  issue at four places, two of which can count in one turn: the release of a parked request and the
  issue of a waiting one. The second has the turn's slot; the first has the slot of the turn that
  parked the request, which counted no issue.

  * `Issuing`: what a part of a cycle adds to the issued commands, by its transfers;
  * `turn_rated`: a turn that accepts a request counted a slot;
  * `issue_rate_le_one`: so the issued commands never exceed the slots.
-/
import Ahasd.Simulator.BusTraffic
import Mathlib.Algebra.Order.Field.Rat
import Mathlib.Algebra.Order.Field.Basic
import Mathlib.Data.Rat.Cast.Order

namespace Ahasd

open Transition TokenFlow Simulator

/-- The reported issue rate in percent, `pim_issue_rate`. -/
def PimCommandIssueStats.issueRate (st : PimCommandIssueStats) : ℚ :=
  if st.candidateSlots > 0 then 100 * st.issuedCommands / st.candidateSlots else 0

theorem PimCommandIssueStats.issueRate_le {st : PimCommandIssueStats}
    (hle : st.issuedCommands ≤ st.candidateSlots) : st.issueRate ≤ 100 := by
  unfold issueRate
  split
  · next hpos =>
      have hslots : (0 : ℚ) < st.candidateSlots := Nat.cast_pos.mpr hpos
      have hcast : (st.issuedCommands : ℚ) ≤ st.candidateSlots := Nat.cast_le.mpr hle
      rw [div_le_iff₀ hslots]
      exact mul_le_mul_of_nonneg_left hcast (by decide)
  · decide

/-- Where parked requests are. -/
def Place.holds : Place → Bool
  | hold _ => true
  | _ => false

namespace Transfer

/-- The request is parked. -/
def parks (v : Transfer) : Bool := v.dst.any Place.holds

/-- The request is accepted on a PIM channel. -/
def uses (isPimChannel : Nat → Bool) (v : Transfer) : Bool := v.accepts && v.memId.any isPimChannel

end Transfer

namespace Simulator

variable {s s' s'' : Simulator} {h : List Transfer}

/-! ## 1. What the parts of a cycle count -/

/-- Issued commands are released or accepted requests, and a parked request is accepted and not
    issued; slots are only added. -/
structure Issuing (isPimChannel : Nat → Bool) (s : Simulator) (r : Simulator × List Transfer) :
    Prop where
  issued : r.1.pimCmdStats.issuedCommands + r.2.countP Transfer.parks ≤
    s.pimCmdStats.issuedCommands + r.2.countP (Transfer.uses isPimChannel) +
      r.2.countP Transfer.releases
  slots : s.pimCmdStats.candidateSlots ≤ r.1.pimCmdStats.candidateSlots

variable {isPim : Nat → Bool}

/-- Nothing is issued and nothing is parked. -/
theorem Issuing.quiet {e : List Transfer}
    (hissued : s'.pimCmdStats.issuedCommands = s.pimCmdStats.issuedCommands)
    (hslots : s.pimCmdStats.candidateSlots ≤ s'.pimCmdStats.candidateSlots)
    (he : ∀ v ∈ e, v.parks = false) : Issuing isPim s (s', e) where
  issued := by
    rw [hissued, List.countP_eq_zero.mpr fun v hv => by simp [he v hv]]
    omega
  slots := hslots

theorem Issuing.refl (s : Simulator) : Issuing isPim s (s, []) :=
  .quiet rfl (Nat.le_refl _) fun _ h => nomatch h

theorem Issuing.trans {e e' : List Transfer} (h : Issuing isPim s (s', e))
    (h' : Issuing isPim s' (s'', e')) : Issuing isPim s (s'', e ++ e') where
  issued := by
    have h₁ := h.issued
    have h₂ := h'.issued
    simp only [List.countP_append] at h₁ h₂ ⊢
    omega
  slots := h.slots.trans h'.slots

theorem notePimCommandIssued_stats (m : Nat) (s : Simulator) :
    (s.notePimCommandIssued m).pimCmdStats.issuedCommands =
        s.pimCmdStats.issuedCommands + (if s.isPimChannel m = true then 1 else 0) ∧
      (s.notePimCommandIssued m).pimCmdStats.candidateSlots = s.pimCmdStats.candidateSlots := by
  unfold notePimCommandIssued
  split <;> exact ⟨rfl, rfl⟩

theorem noteTlmReadIssueWindow_stats (m : Nat) (selected : Option MemoryAccess) (s : Simulator) :
    (s.noteTlmReadIssueWindow m selected).pimCmdStats.issuedCommands =
        s.pimCmdStats.issuedCommands ∧
      (s.noteTlmReadIssueWindow m selected).pimCmdStats.candidateSlots =
        s.pimCmdStats.candidateSlots := by
  unfold noteTlmReadIssueWindow
  split
  · exact ⟨rfl, rfl⟩
  · split
    · exact ⟨rfl, rfl⟩
    · dsimp only
      split <;> exact ⟨rfl, rfl⟩

theorem icntPush_stats (access : MemoryAccess) (node : Node) (s : Simulator) :
    (s.icntPush access node).pimCmdStats = s.pimCmdStats := by
  cases node <;> rfl

theorem drainHold_issuing (full : MemoryAccess → Bool) (m : Nat) :
    Issuing isPim s (s.drainHold full m) := by
  unfold drainHold
  split
  · exact .refl s
  · next deadline front rest _ =>
      split
      · obtain ⟨hissued, hslots⟩ := notePimCommandIssued_stats m (s.updateChannel m fun ch =>
          dramPush front { ch with pimHoldQueue := rest })
        refine ⟨?_, Nat.le_of_eq hslots.symm⟩
        show (Simulator.notePimCommandIssued m _).pimCmdStats.issuedCommands + 0 ≤
          s.pimCmdStats.issuedCommands + 0 + 1
        rw [hissued]
        show s.pimCmdStats.issuedCommands + _ + 0 ≤ _
        split <;> omega
      · exact .refl s

theorem refill_issuing (m : Nat) : Issuing isPim s (s.refill m) :=
  refill_of_moved ⟨.refl, .trans⟩ (fun _ _ _ _ => .quiet rfl (Nat.le_refl _) fun v hv => by
    rw [List.mem_singleton.mp hv]
    rfl) s

/-- An accepted request is issued or parked. -/
theorem accept_issuing (m : Nat) (front : MemoryAccess) (index : Option Nat) :
    Issuing s.isPimChannel s (s.accept m front index) := by
  unfold accept
  have hroute := s.route_spec m front
  generalize s.route m front = r at hroute
  obtain ⟨landing, pim, ssrc⟩ := r
  dsimp only
  have hpim : ({ s with pim := pim, ssrc := ssrc }.updateChannel m fun ch =>
      takeIncoming index (s.land front ch landing)).isPimChannel m = s.isPimChannel m := by
    show (pim.active && pim.isPimChannel m) = (s.pim.active && s.pim.isPimChannel m)
    unfold PIMBackend.isPimChannel
    rw [hroute.active, hroute.isPim]
  obtain ⟨hissued, hslots⟩ := notePimCommandIssued_stats m
    ({ s with pim := pim, ssrc := ssrc }.updateChannel m fun ch =>
      takeIncoming index (s.land front ch landing))
  rw [hpim] at hissued
  have huses : ∀ v : Transfer, v.accepts = true → v.memId = some m →
      [v].countP (Transfer.uses s.isPimChannel) = if s.isPimChannel m = true then 1 else 0 := by
    intro v hv hm
    rw [List.countP_singleton]
    simp [Transfer.uses, hv, hm]
  cases landing with
  | hold cycles =>
      refine ⟨?_, Nat.le_refl _⟩
      show s.pimCmdStats.issuedCommands + 1 ≤ _
      rw [huses _ (by cases index <;> rfl) (by cases index <;> rfl), if_pos hroute.lands.1]
      exact Nat.le_add_right _ _
  | _ =>
      refine ⟨?_, Nat.le_of_eq hslots.symm⟩
      show (Simulator.notePimCommandIssued m _).pimCmdStats.issuedCommands + 0 ≤ _
      rw [hissued, huses _ (by cases index <;> rfl) (by cases index <;> rfl)]
      exact Nat.le_add_right _ _

theorem issue_issuing (full : MemoryAccess → Bool) (m : Nat) :
    Issuing s.isPimChannel s (s.issue full m) := by
  unfold issue
  dsimp only
  obtain ⟨hissued, hslots⟩ := noteTlmReadIssueWindow_stats m ((s.incoming full m).map Prod.fst) s
  have hst := noteTlmReadIssueWindow_steady m ((s.incoming full m).map Prod.fst) s
  generalize s.noteTlmReadIssueWindow m ((s.incoming full m).map Prod.fst) = t at hissued hslots hst
  have hpim : t.isPimChannel = s.isPimChannel := funext hst.isPimChannel
  have hnote : Issuing s.isPimChannel s (t, []) :=
    .quiet hissued (Nat.le_of_eq hslots.symm) fun _ h => nomatch h
  split
  · exact hnote
  · split
    · exact hnote
    · exact hnote.trans (e := []) (hpim ▸ accept_issuing m _ _)

theorem sendBack_issuing {m : Nat} {f : Channel → Channel} (p : Place) (response : MemoryAccess) :
    Issuing isPim s ((s.updateChannel m f).sendBack p response) := by
  have hstats := icntPush_stats response ((s.updateChannel m f).getDestNode response)
    (s.updateChannel m f)
  unfold sendBack
  refine .quiet (congrArg PimCommandIssueStats.issuedCommands hstats)
    (Nat.le_of_eq (congrArg PimCommandIssueStats.candidateSlots hstats).symm) fun v hv => ?_
  rw [List.mem_singleton.mp hv]
  cases (s.updateChannel m f).getDestNode response <;> rfl

/-- **Every part of a cycle issues by its transfers.** -/
theorem op_issuing (bp : BackPressure) (o : Op) : Issuing s.isPimChannel s (s.op bp o) := by
  cases o with
  | coreRequest coreId =>
      show Issuing _ s (s.coreRequest _ coreId)
      unfold coreRequest
      split
      · exact .refl s
      · dsimp only
        split
        · exact .quiet rfl (Nat.le_refl _) fun _ h => nomatch h
        · cases hd : s.getDestNode _ <;>
            exact .quiet rfl (Nat.le_refl _) fun v hv => by rw [List.mem_singleton.mp hv]; rfl
  | coreResponse coreId =>
      show Issuing _ s (s.coreResponse coreId)
      unfold coreResponse
      split
      · exact .refl s
      · exact .quiet rfl (Nat.le_refl _) fun v hv => by rw [List.mem_singleton.mp hv]; rfl
  | noteCandidate m =>
      show Issuing _ s (s.notePimCommandCandidate m, [])
      unfold notePimCommandCandidate
      dsimp only
      split
      · exact .quiet rfl (Nat.le_succ _) fun _ h => nomatch h
      · exact .refl s
  | drainHold m => exact drainHold_issuing _ m
  | refill m => exact refill_issuing m
  | issue m => exact issue_issuing _ m
  | drainBypass m =>
      show Issuing _ s (s.drainBypass _ m)
      unfold drainBypass
      split
      · exact .refl s
      · split
        · exact sendBack_issuing _ _
        · exact .refl s
  | drainSsrcBypass m =>
      show Issuing _ s (s.drainSsrcBypass _ m)
      unfold drainSsrcBypass
      split
      · exact .refl s
      · split
        · exact sendBack_issuing _ _
        · exact .refl s
  | dramResponse m =>
      show Issuing _ s (s.dramResponse _ m)
      unfold dramResponse
      split
      · exact .refl s
      · split
        · exact .refl s
        · exact sendBack_issuing _ _

theorem runOps_issuing (bp : BackPressure) (os : List Op) (s : Simulator) :
    Issuing s.isPimChannel s (runOps bp os s) := by
  induction os generalizing s with
  | nil => exact .refl s
  | cons o os ih =>
      have hpim : (s.op bp o).1.isPimChannel = s.isPimChannel :=
        funext (op_local bp o).steady.isPimChannel
      have hrest : Issuing s.isPimChannel (s.op bp o).1 (runOps bp os (s.op bp o).1) := hpim ▸ ih _
      exact (op_issuing bp o).trans hrest

/-! ## 2. A turn that accepts a request has a slot -/

theorem waiting_of_incoming {full : MemoryAccess → Bool} {m : Nat} {r : MemoryAccess × Option Nat}
    (hin : s.incoming full m = some r) : (s.channels m).waiting ≠ [] := by
  have hwaiting := incoming_waiting hin
  unfold Channel.waiting
  intro hnil
  obtain ⟨hooo, hicnt⟩ := List.append_eq_nil_iff.mp hnil
  obtain ⟨front, index⟩ := r
  cases index with
  | some i =>
      have hfront : (s.channels m).pimCmdOooQueue[i]? = some front := hwaiting
      rw [hooo] at hfront
      cases hfront
  | none =>
      have hfront : (s.channels m).icntOutput.head? = some front := hwaiting
      rw [hicnt] at hfront
      cases hfront

/-- What a turn accepts, it has issued: one request at most, and that had been waiting. -/
theorem TurnSpec.accepts_le_one {bp : BackPressure} {m : Nat} {t : Simulator}
    {refilled issued back : List Transfer} {r : Simulator × List Transfer}
    (hturn : TurnSpec bp m s t refilled issued back r) :
    r.2.countP Transfer.accepts ≤ if (s.channels m).waiting = [] then 0 else 1 := by
  have hreleases : ((s.released (bp.holdDramFull m) m).toList.map (s.releaseOf m)).countP
      Transfer.accepts = 0 := by
    refine List.countP_eq_zero.mpr fun v hv => ?_
    obtain ⟨front, _, rfl⟩ := List.mem_map.mp hv
    exact Bool.false_ne_true
  have hrefilled : refilled.countP Transfer.accepts = 0 := by
    refine List.countP_eq_zero.mpr fun v hv => ?_
    simp [Transfer.accepts, (hturn.refill v hv).2, Place.inMemory]
  have hback : back.countP Transfer.accepts = 0 := by
    refine List.countP_eq_zero.mpr fun v hv => ?_
    obtain ⟨node, hnode⟩ := (hturn.answers v hv).2
    cases node <;> simp [Transfer.accepts, hnode, Node.path, Place.inMemory]
  rw [hturn.transfers]
  simp only [List.countP_append, hreleases, hrefilled, hback, Nat.zero_add, Nat.add_zero]
  have hissue := hturn.issue
  generalize hr : (r.1, issued) = r' at hissue
  cases hissue with
  | none =>
      cases hr
      exact Nat.zero_le _
  | one hin _ _ _ _ =>
      cases hr
      have hne : (s.channels m).waiting ≠ [] := by
        rw [← hturn.waiting]
        exact waiting_of_incoming hin
      rw [if_neg hne]
      exact List.countP_le_length

/-- **A turn adds the slot of what it accepts.** -/
theorem turn_rated (bp : BackPressure) (m : Nat) (s : Simulator) :
    s.pimCmdStats.candidateSlots +
        (runOps bp (channelOps m) s).2.countP (Transfer.uses s.isPimChannel) ≤
      (runOps bp (channelOps m) s).1.pimCmdStats.candidateSlots := by
  have huses : (runOps bp (channelOps m) s).2.countP (Transfer.uses s.isPimChannel) ≤
      if s.isPimChannel m = true ∧ (s.channels m).waiting ≠ [] then 1 else 0 := by
    by_cases hpim : s.isPimChannel m = true
    · obtain ⟨t, refilled, issued, back, hturn⟩ := turn_spec bp m s
      have hle := hturn.accepts_le_one
      have hsub : (runOps bp (channelOps m) s).2.countP (Transfer.uses s.isPimChannel) ≤
          (runOps bp (channelOps m) s).2.countP Transfer.accepts :=
        List.countP_mono_left fun v _ hv => (Bool.and_eq_true_iff.mp hv).1
      refine hsub.trans (hle.trans ?_)
      by_cases hnil : (s.channels m).waiting = [] <;> simp [hpim, hnil]
    · have hnone : (runOps bp (channelOps m) s).2.countP (Transfer.uses s.isPimChannel) = 0 := by
        refine List.countP_eq_zero.mpr fun v hv huse => ?_
        have hm := runOps_transfers bp (channelOps m) s (fun o ho => channelOps_memId ho) v hv
        have hany := (Bool.and_eq_true_iff.mp huse).2
        rw [hm] at hany
        exact hpim hany
      rw [hnone]
      exact Nat.zero_le _
  have hslots : (s.notePimCommandCandidate m).pimCmdStats.candidateSlots ≤
      (runOps bp (channelOps m) s).1.pimCmdStats.candidateSlots :=
    (runOps_issuing bp _ (s.notePimCommandCandidate m)).slots
  have hnote : s.pimCmdStats.candidateSlots +
      (if s.isPimChannel m = true ∧ (s.channels m).waiting ≠ [] then 1 else 0) ≤
      (s.notePimCommandCandidate m).pimCmdStats.candidateSlots := by
    by_cases hslot : s.isPimChannel m = true ∧ (s.channels m).waiting ≠ []
    · rw [if_pos hslot]
      obtain ⟨hpim, hne⟩ := hslot
      unfold notePimCommandCandidate
      dsimp only
      have hcandidate : (s.isPimChannel m && (!(s.channels m).pimHoldQueue.isEmpty ||
          !(s.channels m).pimCmdOooQueue.isEmpty || !(s.channels m).icntOutput.isEmpty)) = true := by
        rw [hpim, Bool.true_and]
        unfold Channel.waiting at hne
        cases hooo : (s.channels m).pimCmdOooQueue with
        | cons => simp
        | nil =>
            cases hicnt : (s.channels m).icntOutput with
            | cons => simp
            | nil => exact absurd (by rw [hooo, hicnt]; rfl) hne
      rw [if_pos hcandidate]
    · rw [if_neg hslot]
      exact (op_issuing {} (.noteCandidate m)).slots
  omega

theorem turns_rated (bp : BackPressure) (ms : List Nat) (s : Simulator) :
    s.pimCmdStats.candidateSlots +
        (runOps bp (ms.flatMap channelOps) s).2.countP (Transfer.uses s.isPimChannel) ≤
      (runOps bp (ms.flatMap channelOps) s).1.pimCmdStats.candidateSlots := by
  induction ms generalizing s with
  | nil => exact Nat.le_refl _
  | cons m ms ih =>
      have hfirst := turn_rated bp m s
      have hrest := ih (runOps bp (channelOps m) s).1
      rw [funext (runOps_steady bp (channelOps m) s).isPimChannel] at hrest
      rw [List.flatMap_cons, runOps_append, List.countP_append]
      dsimp only
      omega

/-- **A cycle adds the slots of what it accepts.** -/
theorem cycle_rated (bp : BackPressure) (s : Simulator) :
    s.pimCmdStats.candidateSlots +
        (runOps bp s.ops s).2.countP (Transfer.uses s.isPimChannel) ≤
      (runOps bp s.ops s).1.pimCmdStats.candidateSlots := by
  unfold ops
  rw [runOps_append, List.countP_append]
  have hmemId : ∀ o ∈ (List.range s.nCores).flatMap coreOps, o.memId = none := by
    intro o ho
    obtain ⟨c, _, hoc⟩ := List.mem_flatMap.mp ho
    exact coreOps_memId hoc
  have hcores : (runOps bp ((List.range s.nCores).flatMap coreOps) s).2.countP
      (Transfer.uses s.isPimChannel) = 0 := by
    refine List.countP_eq_zero.mpr fun v hv huse => ?_
    have hnone := runOps_transfers bp _ s hmemId v hv
    have hany := (Bool.and_eq_true_iff.mp huse).2
    rw [hnone] at hany
    cases hany
  have hslots := (runOps_issuing bp ((List.range s.nCores).flatMap coreOps) s).slots
  have hturns := turns_rated bp (List.range s.nMemories)
    (runOps bp ((List.range s.nCores).flatMap coreOps) s).1
  rw [funext (runOps_steady bp _ s).isPimChannel] at hturns
  dsimp only
  omega

/-! ## 3. Runs -/

/-- **The issued commands and the slots of a history.** -/
structure Rated (isPimChannel : Nat → Bool) (s : Simulator) (h : List Transfer) : Prop where
  channels : s.isPimChannel = isPimChannel
  issued : s.pimCmdStats.issuedCommands + h.countP Transfer.parks ≤
    h.countP (Transfer.uses isPimChannel) + h.countP Transfer.releases
  slots : h.countP (Transfer.uses isPimChannel) ≤ s.pimCmdStats.candidateSlots

/-- Every act keeps them. -/
theorem exec_rated {a : MemoryAct} {r : Simulator × List Transfer} (hr : s.exec a = some r)
    (hrated : Rated isPim s h) : Rated isPim r.1 (h ++ r.2) := by
  have hchannels : r.1.isPimChannel = isPim :=
    (funext fun m => exec_isPimChannel hr m).trans hrated.channels
  have hissued := hrated.issued
  have hslots := hrated.slots
  by_cases ha : ∃ bp, a = .icntCycle bp
  · obtain ⟨bp, rfl⟩ := ha
    cases hr
    have hcycle := (runOps_issuing bp s.ops s).issued
    have hadded := cycle_rated bp s
    rw [hrated.channels] at hcycle hadded
    refine ⟨hchannels, ?_, ?_⟩
    · simp only [List.countP_append]
      omega
    · simp only [List.countP_append]
      omega
  · have hb := exec_between hr fun bp heq => ha ⟨bp, heq⟩
    have hparks : r.2.countP Transfer.parks = 0 := by
      refine List.countP_eq_zero.mpr fun v hv hpark => ?_
      have hout := (hb.transfers v hv).2
      unfold Transfer.parks at hpark
      cases hd : v.dst with
      | none =>
          rw [hd] at hpark
          cases hpark
      | some p =>
          rw [hd] at hpark hout
          cases p <;> first | exact Bool.noConfusion hpark | exact Bool.noConfusion hout
    have huses : r.2.countP (Transfer.uses isPim) = 0 := by
      refine List.countP_eq_zero.mpr fun v hv huse => ?_
      have haccepts := (Bool.and_eq_true_iff.mp huse).1
      unfold Transfer.accepts at haccepts
      rw [(hb.transfers v hv).2] at haccepts
      cases haccepts
    refine ⟨hchannels, ?_, ?_⟩
    · rw [List.countP_append, List.countP_append, List.countP_append, hparks, huses, hb.stats]
      omega
    · rw [List.countP_append, huses, hb.stats]
      exact hslots

/-- What is released had been parked. -/
theorem Account.releases_le_parks (ha : Account s h) :
    h.countP Transfer.releases ≤ h.countP Transfer.parks := by
  have hsub := ha.flow.leavingTokens_subperm ha.distinct Place.holds
  rw [enteringTokens_moves, leavingTokens_moves] at hsub
  have hle := hsub.length_le
  rw [requestsOf_length, requestsOf_length] at hle
  have hreleases : h.countP Transfer.releases =
      h.countP (fun v => v.move.leaving Place.holds) := by
    refine List.countP_congr fun v hv => ?_
    have hrouted := ha.routes v hv
    unfold Transfer.releases Move.leaving Transfer.move inside
    cases hs : v.src with
    | none => rfl
    | some p =>
        cases hd : v.dst with
        | none =>
            rw [hrouted.done hd] at hs
            cases hs
            rfl
        | some q =>
            have hl := hrouted.between p q hs hd
            cases p <;> cases q <;> first | rfl | exact Bool.noConfusion hl
  have hparks : h.countP (fun v => v.move.entering Place.holds) ≤ h.countP Transfer.parks :=
    List.countP_mono_left fun v _ hv => (Bool.and_eq_true_iff.mp hv).1
  omega

end Simulator

/-- **The issued PIM commands never exceed the candidate slots**, in any run; the reported rate is
    at most 100 percent. -/
theorem issue_rate_le_one {c : MemorySetup} {as : List MemoryAct} {s : Simulator}
    {h : List Transfer} (hr : c.run as = some (s, h)) :
    s.pimCmdStats.issuedCommands ≤ s.pimCmdStats.candidateSlots ∧
      s.pimCmdStats.issueRate ≤ 100 := by
  have hrated : Rated c.start.isPimChannel s h := by
    refine (exec_of_run hr).invariant (P := Rated c.start.isPimChannel)
      ⟨rfl, Nat.le_refl _, Nat.le_refl _⟩ ?_
    intro t h a t' ht hs
    obtain ⟨e, hexec, hobs⟩ := machine_step hs
    rw [hobs]
    exact exec_rated hexec ht
  have hissued := hrated.issued
  have hslots := hrated.slots
  have hparked := (MemorySetup.account hr).releases_le_parks
  have hle : s.pimCmdStats.issuedCommands ≤ s.pimCmdStats.candidateSlots := by omega
  exact ⟨hle, PimCommandIssueStats.issueRate_le hle⟩

/-- Two cycles that park a request each, and one that releases the first and issues a third. -/
theorem issue_rate_le_one_sample : ∃ s h, memorySample.run (parking ++ arriving ++
      [.deliver (.memory 0) 0, .coreCycle, .coreCycle, .icntCycle {}]) = some (s, h) ∧
    s.pimCmdStats.issuedCommands = 2 ∧ s.pimCmdStats.candidateSlots = 3 ∧
    s.pimCmdStats.issuedCommands ≤ s.pimCmdStats.candidateSlots := by
  obtain ⟨⟨s, h⟩, hrun, hend⟩ := (Option.any_eq_true _ _).mp (show
    (memorySample.run (parking ++ arriving ++ [.deliver (.memory 0) 0, .coreCycle, .coreCycle,
      .icntCycle {}])).any (fun r => r.1.pimCmdStats.issuedCommands = 2 &&
        r.1.pimCmdStats.candidateSlots = 3) = true by decide +kernel)
  simp only [Bool.and_eq_true, decide_eq_true_eq] at hend
  exact ⟨s, h, hrun, hend.1, hend.2, (issue_rate_le_one hrun).1⟩

end Ahasd
