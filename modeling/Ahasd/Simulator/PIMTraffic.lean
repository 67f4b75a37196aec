/-
  File:      Ahasd/Simulator/PIMTraffic.lean
  Subject:   THE REQUEST STATISTICS OF THE PIM OVERLAY (PIMBackend::Stats), against the requests the
             memory side accepted on PIM channels.

  Three functions keep the same counters. The simulator asks them in turn, for each request it
  accepts, and a parked request goes on to DRAM without being asked about again.

  * `PIMTraffic`, `PIMTraffic.add`: the counters, and what one request adds to them;
  * `route_traffic`: a request on its way through the overlay is added once, on a PIM channel;
  * `Adds`: what a part of a cycle adds; `run_adds`: what a run adds;
  * `route_keeps`, `op_keeps`: what the calls of the overlay keep, a cycle keeps;
  * `pim_counts_once`: the statistics are those of the requests issued to PIM channels.
-/
import Ahasd.Simulator.BusTraffic

namespace Ahasd

open Transition TokenFlow Simulator

/-! ## 1. The counters -/

/-- The request counters of the statistics. -/
structure PIMTraffic where
  requests : Nat := 0
  reads : Nat := 0
  writes : Nat := 0
  readBytes : Nat := 0
  writeBytes : Nat := 0
  attention : Nat := 0
  deriving DecidableEq, Repr

def PIMStats.traffic (s : PIMStats) : PIMTraffic where
  requests := s.totalPimRequests
  reads := s.totalPimReadRequests
  writes := s.totalPimWriteRequests
  readBytes := s.totalPimReadBytes
  writeBytes := s.totalPimWriteBytes
  attention := s.totalAttentionClassRequests

namespace PIMTraffic

/-- What one request adds. -/
def add (t : PIMTraffic) (access : MemoryAccess) : PIMTraffic where
  requests := t.requests + 1
  reads := t.reads + (!access.write).toNat
  writes := t.writes + access.write.toNat
  readBytes := t.readBytes + if access.write then 0 else access.size
  writeBytes := t.writeBytes + if access.write then access.size else 0
  attention := t.attention + access.requestIdentityTagged.toNat

/-- **The counters of the requests**: their number, that of the reads, the writes and the tagged
    ones, and the bytes of the reads and of the writes. -/
structure CountsOf (t : PIMTraffic) (l : List MemoryAccess) : Prop where
  requests : t.requests = l.length
  split : t.requests = t.reads + t.writes
  reads : t.reads = (l.filter fun access => !access.write).length
  writes : t.writes = (l.filter fun access => access.write).length
  readBytes : t.readBytes = ((l.filter fun access => !access.write).map MemoryAccess.size).sum
  writeBytes : t.writeBytes = ((l.filter fun access => access.write).map MemoryAccess.size).sum
  attention : t.attention = (l.filter fun access => access.requestIdentityTagged).length

/-- Adding requests one by one counts them. -/
theorem foldl_add (l : List MemoryAccess) : CountsOf (l.foldl add {}) l := by
  induction l using List.reverseRecOn with
  | nil => exact ⟨rfl, rfl, rfl, rfl, rfl, rfl, rfl⟩
  | append_singleton l access ih =>
      obtain ⟨hrequests, hsplit, hreads, hwrites, hreadBytes, hwriteBytes, hattention⟩ := ih
      rw [List.foldl_append]
      cases hw : access.write <;> cases ht : access.requestIdentityTagged <;>
        refine ⟨?_, ?_, ?_, ?_, ?_, ?_, ?_⟩ <;>
        simp [add, hw, ht, hrequests, ← hreads, ← hwrites, ← hreadBytes, ← hwriteBytes,
          ← hattention]
      all_goals omega

end PIMTraffic

/-! ## 2. The overlay -/

namespace PIMBackend

/-- The request counters of the overlay. -/
def traffic (p : PIMBackend) : PIMTraffic := p.stats.traffic

variable (p : PIMBackend) (cid : Nat) (req : MemoryAccess)

/-- **The push adds its request**, on a PIM channel. -/
theorem onDramPush_traffic (npuCycle : Nat) : (p.onDramPush cid req npuCycle).2.traffic =
    if p.active && p.isPimChannel cid then p.traffic.add req else p.traffic := by
  unfold onDramPush
  rw [← Bool.not_and]
  cases p.active && p.isPimChannel cid with
  | false => rfl
  | true =>
      rw [if_neg (by simp), if_pos rfl]
      unfold traffic PIMStats.traffic PIMTraffic.add countRequest
      cases req.write <;> cases req.requestIdentityTagged <;> (dsimp only; split <;> rfl)

/-- **The AAU bypass adds the request it absorbs**, a tagged one, and no other. -/
theorem tryAauBypass_adds :
    (p.tryAauBypass cid req).1 = true ∧
        (p.tryAauBypass cid req).2.traffic = p.traffic.add req ∨
      (p.tryAauBypass cid req).1 = false ∧ (p.tryAauBypass cid req).2.traffic = p.traffic := by
  unfold tryAauBypass shouldApplyAauFusion
  split
  · exact .inr ⟨rfl, rfl⟩
  · split
    · exact .inr ⟨rfl, rfl⟩
    · next htagged =>
        split
        · exact .inr ⟨rfl, rfl⟩
        · refine .inl ⟨rfl, ?_⟩
          have htag : req.requestIdentityTagged = true := by
            cases ht : req.requestIdentityTagged with
            | true => rfl
            | false => simp [ht] at htagged
          unfold traffic PIMStats.traffic PIMTraffic.add countRequest
          rw [htag]
          cases req.write <;> rfl

/-- **The SSRC bypass adds the request it absorbs**, a tagged write, and no other. -/
theorem trySsrcBypass_adds (ssrc : SSRCCoordinator) :
    (p.trySsrcBypass ssrc cid req).1 = true ∧
        (p.trySsrcBypass ssrc cid req).2.1.traffic = p.traffic.add req ∨
      (p.trySsrcBypass ssrc cid req).1 = false ∧
        (p.trySsrcBypass ssrc cid req).2.1.traffic = p.traffic := by
  -- the diagnostic counters are none of the request counters
  have hsame : (if (req.write && req.requestIdentityTagged) = true then
      { p.stats with
        ssrcTaggedWritesTotal := p.stats.ssrcTaggedWritesTotal + 1
        ssrcTaggedPimWritesSeen :=
          if p.isPimChannel cid = true then p.stats.ssrcTaggedPimWritesSeen + 1
          else p.stats.ssrcTaggedPimWritesSeen }
      else p.stats).traffic = p.stats.traffic := by
    split <;> rfl
  unfold trySsrcBypass
  dsimp only
  generalize (if (req.write && req.requestIdentityTagged) = true then _ else _ : PIMStats) = stats
    at hsame ⊢
  split
  · exact .inr ⟨rfl, rfl⟩
  · split
    · exact .inr ⟨rfl, hsame⟩
    · split
      · exact .inr ⟨rfl, hsame⟩
      · next hkv =>
          split
          · exact .inr ⟨rfl, hsame⟩
          · split
            · exact .inr ⟨rfl, hsame⟩
            · split
              · exact .inr ⟨rfl, hsame⟩
              · refine .inl ⟨rfl, ?_⟩
                have hwrite : req.write = true := by
                  cases hw : req.write with
                  | true => rfl
                  | false => simp [hw] at hkv
                have htag : req.requestIdentityTagged = true := by
                  cases ht : req.requestIdentityTagged with
                  | true => rfl
                  | false => simp [ht] at hkv
                show PIMStats.traffic _ = p.stats.traffic.add req
                rw [← hsame]
                unfold PIMStats.traffic PIMTraffic.add countRequest
                rw [hwrite, htag]
                rfl

/-- Switches, holds and the clock count no request. -/
theorem NoService.traffic {p p' : PIMBackend} (h : NoService p p') : p'.traffic = p.traffic := by
  show p'.requestStats.traffic = p.requestStats.traffic
  rw [h.stats]

theorem new_traffic (config : SimulationConfig) : (new config).traffic = {} := by
  unfold new
  split
  · rfl
  · dsimp only
    split <;> rfl

end PIMBackend

/-! ## 3. The parts of a cycle -/

/-- The memory side accepts the request on a PIM channel. -/
def Transfer.issuesToPim (isPimChannel : Nat → Bool) (v : Transfer) : Bool :=
  v.accepts && v.memId.any isPimChannel

namespace Simulator

variable {s s' s'' : Simulator} {e e' h : List Transfer}

/-- **On its way through the overlay a request is added once, on a PIM channel**: by the bypass that
    absorbs it, else by the push. -/
theorem route_traffic (m : Nat) (front : MemoryAccess) (s : Simulator) :
    (s.route m front).2.1.traffic =
      if s.isPimChannel m then s.pim.traffic.add front else s.pim.traffic := by
  unfold route
  cases hact : s.pim.active with
  | false => simp [Simulator.isPimChannel, hact]
  | true =>
      have hchannel : s.isPimChannel m = s.pim.isPimChannel m := by
        rw [Simulator.isPimChannel, hact, Bool.true_and]
      -- the SSRC bypass
      have hssrc : ∀ r : Bool × PIMBackend × SSRCCoordinator,
          (if (true && s.ssrc.isEnabled) = true then s.pim.trySsrcBypass s.ssrc m front
            else (false, s.pim, s.ssrc)) = r →
          PIMBackend.SameRanks s.pim r.2.1 ∧
            (r.1 = true ∧ r.2.1.traffic = s.pim.traffic.add front ∧ s.isPimChannel m = true ∨
              r.1 = false ∧ r.2.1.traffic = s.pim.traffic) := by
        rintro r rfl
        split
        · refine ⟨(s.pim.trySsrcBypass_frame m front s.ssrc).1, ?_⟩
          rcases s.pim.trySsrcBypass_adds m front s.ssrc with ⟨hb, ht⟩ | hnone
          · exact .inl ⟨hb, ht, hchannel.trans
              ((s.pim.trySsrcBypass_absorbs m front s.ssrc).mp hb).2.1⟩
          · exact .inr hnone
        · exact ⟨.refl _, .inr ⟨rfl, rfl⟩⟩
      generalize hr : (if (true && s.ssrc.isEnabled) = true then
        s.pim.trySsrcBypass s.ssrc m front else (false, s.pim, s.ssrc)) = r
      obtain ⟨ssrcBypassed, pim, ssrc⟩ := r
      obtain ⟨hranks, hadds⟩ := hssrc _ hr
      dsimp only at hranks hadds ⊢
      rcases hadds with ⟨rfl, ht, hpim⟩ | ⟨rfl, ht⟩
      · rw [if_pos rfl, if_pos hpim]
        exact ht
      · rw [if_neg Bool.false_ne_true, if_pos rfl]
        -- the AAU bypass
        have haau := pim.tryAauBypass_adds m front
        have hin := pim.tryAauBypass_channel m front
        have hranks' := pim.tryAauBypass_sameRanks m front
        generalize pim.tryAauBypass m front = r at haau hin hranks'
        obtain ⟨bypassed, pim'⟩ := r
        dsimp only at haau hin hranks' ⊢
        rcases haau with ⟨rfl, ht'⟩ | ⟨rfl, ht'⟩
        · have hpim : s.isPimChannel m = true := by
            rw [hchannel, ← hranks.isPimChannel m]
            exact (hin rfl).2
          rw [if_pos rfl, if_pos hpim, ← ht]
          exact ht'
        · -- the push
          have hpush := pim'.onDramPush_traffic m front s.coreCycles
          rw [hranks'.active, hranks.active, hact, hranks'.isPimChannel, hranks.isPimChannel,
            ← hchannel, ht', ht] at hpush
          rw [if_neg Bool.false_ne_true, if_pos rfl]
          generalize pim'.onDramPush m front s.coreCycles = r at hpush
          obtain ⟨hold, pim''⟩ := r
          dsimp only at hpush ⊢
          split <;> exact hpush

/-- The counters move by the requests issued to PIM channels. -/
structure Adds (s : Simulator) (r : Simulator × List Transfer) : Prop where
  channels : r.1.isPimChannel = s.isPimChannel
  traffic : r.1.pim.traffic = (requestsOf (Transfer.issuesToPim s.isPimChannel) r.2).foldl
    PIMTraffic.add s.pim.traffic

/-- The overlay is not asked, and nothing is accepted. -/
structure Unasked (s : Simulator) (r : Simulator × List Transfer) : Prop where
  pim : r.1.pim = s.pim
  accepts : ∀ v ∈ r.2, v.accepts = false

theorem requestsOf_append (kind : Transfer → Bool) (h e : List Transfer) :
    requestsOf kind (h ++ e) = requestsOf kind h ++ requestsOf kind e := by
  unfold requestsOf
  rw [List.filter_append, List.map_append]

theorem requestsOf_none {kind : Transfer → Bool} (h : ∀ v ∈ e, kind v = false) :
    requestsOf kind e = [] := by
  unfold requestsOf
  rw [List.filter_eq_nil_iff.mpr fun v hv => by simp [h v hv]]
  rfl

theorem Adds.trans (h : Adds s (s', e)) (h' : Adds s' (s'', e')) : Adds s (s'', e ++ e') := by
  have hch : s'.isPimChannel = s.isPimChannel := h.channels
  refine ⟨h'.channels.trans hch, ?_⟩
  have ht := h.traffic
  have ht' := h'.traffic
  dsimp only at ht ht' ⊢
  rw [requestsOf_append, List.foldl_append, ← ht, ht', hch]

/-- What accepts nothing adds nothing. -/
theorem Adds.none {r : Simulator × List Transfer} (hch : r.1.isPimChannel = s.isPimChannel)
    (ht : r.1.pim.traffic = s.pim.traffic) (hno : ∀ v ∈ r.2, v.accepts = false) : Adds s r := by
  refine ⟨hch, ?_⟩
  rw [requestsOf_none fun v hv => by rw [Transfer.issuesToPim, hno v hv, Bool.false_and]]
  exact ht

theorem Unasked.adds {r : Simulator × List Transfer} (h : Unasked s r) : Adds s r :=
  .none (by funext m; unfold Simulator.isPimChannel; rw [h.pim]) (by rw [h.pim]) h.accepts

theorem Unasked.nothing (s : Simulator) : Unasked s (s, []) := ⟨rfl, fun _ h => nomatch h⟩

theorem Unasked.trans (h : Unasked s (s', e)) (h' : Unasked s' (s'', e')) :
    Unasked s (s'', e ++ e') where
  pim := h'.pim.trans h.pim
  accepts := fun v hv => (List.mem_append.mp hv).elim (h.accepts v) (h'.accepts v)

theorem Unasked.one {v : Transfer} (hp : s'.pim = s.pim) (hv : v.accepts = false) :
    Unasked s (s', [v]) :=
  ⟨hp, fun w hw => by rwa [List.mem_singleton.mp hw]⟩

theorem notePimCommandIssued_pim (m : Nat) (s : Simulator) :
    (s.notePimCommandIssued m).pim = s.pim := by
  unfold notePimCommandIssued
  split <;> rfl

theorem noteTlmReadIssueWindow_pim (m : Nat) (selected : Option MemoryAccess) (s : Simulator) :
    (s.noteTlmReadIssueWindow m selected).pim = s.pim := by
  unfold noteTlmReadIssueWindow
  split
  · rfl
  · split <;> rfl

theorem notePimCommandCandidate_pim (m : Nat) (s : Simulator) :
    (s.notePimCommandCandidate m).pim = s.pim := by
  unfold notePimCommandCandidate
  dsimp only
  split <;> rfl

theorem drainHold_unasked (full : MemoryAccess → Bool) (m : Nat) :
    Unasked s (s.drainHold full m) := by
  unfold drainHold
  split
  · exact .nothing s
  · next deadline front rest _ =>
      split
      · exact .one (notePimCommandIssued_pim m (s.updateChannel m fun ch =>
          dramPush front { ch with pimHoldQueue := rest })) rfl
      · exact .nothing s

theorem refill_unasked (m : Nat) : Unasked s (s.refill m) :=
  refill_of_moved ⟨.nothing, .trans⟩ (fun _ _ _ _ => .one rfl rfl) s

theorem sendBack_unasked {m : Nat} {f : Channel → Channel} (p : Place) (response : MemoryAccess) :
    Unasked s ((s.updateChannel m f).sendBack p response) := by
  unfold sendBack
  cases (s.updateChannel m f).getDestNode response <;> exact .one rfl (by cases p <;> rfl)

theorem drainBypass_unasked (full : MemoryAccess → Bool) (m : Nat) :
    Unasked s (s.drainBypass full m) := by
  unfold drainBypass
  split
  · exact .nothing s
  · split
    · exact sendBack_unasked _ _
    · exact .nothing s

theorem drainSsrcBypass_unasked (full : MemoryAccess → Bool) (m : Nat) :
    Unasked s (s.drainSsrcBypass full m) := by
  unfold drainSsrcBypass
  split
  · exact .nothing s
  · split
    · exact sendBack_unasked _ _
    · exact .nothing s

theorem dramResponse_unasked (full : MemoryAccess → Bool) (m : Nat) :
    Unasked s (s.dramResponse full m) := by
  unfold dramResponse
  split
  · exact .nothing s
  · split
    · exact .nothing s
    · exact sendBack_unasked _ _

theorem coreRequest_unasked (full : MemoryAccess → Bool) (coreId : Nat) :
    Unasked s (s.coreRequest full coreId) := by
  unfold coreRequest
  split
  · exact .nothing s
  · dsimp only
    split
    · exact ⟨rfl, fun _ h => nomatch h⟩
    · cases s.getDestNode _ <;> exact .one rfl rfl

theorem coreResponse_unasked (coreId : Nat) : Unasked s (s.coreResponse coreId) := by
  unfold coreResponse
  split
  · exact .nothing s
  · exact .one rfl rfl

/-- The transfer of an issue is one to a PIM channel if its channel is. -/
theorem issuesToPim_accept (isPimChannel : Nat → Bool) (m : Nat) (index : Option Nat)
    (landing : Landing) {v : Transfer} (hsrc : v.src = some (incomingPlace m index))
    (hdst : v.dst = some (landing.place m)) :
    v.issuesToPim isPimChannel = isPimChannel m := by
  unfold Transfer.issuesToPim Transfer.accepts Transfer.memId
  rw [hsrc, hdst]
  cases index <;> cases landing <;> rfl

/-- The overlay after an issue is the one the request leaves behind. -/
theorem accept_pim (m : Nat) (front : MemoryAccess) (index : Option Nat) (s : Simulator) :
    (s.accept m front index).1.pim = (s.route m front).2.1 := by
  unfold accept
  generalize s.route m front = r
  obtain ⟨landing, pim, ssrc⟩ := r
  dsimp only
  split
  · exact notePimCommandIssued_pim m _
  · rfl

/-- **The issue adds the request it takes**, on a PIM channel. -/
theorem accept_adds (m : Nat) (front : MemoryAccess) (index : Option Nat) :
    Adds s (s.accept m front index) := by
  refine ⟨funext (accept_local (s := s) m front index).steady.isPimChannel, ?_⟩
  rw [accept_pim, route_traffic]
  unfold accept
  generalize s.route m front = r
  obtain ⟨landing, pim, ssrc⟩ := r
  dsimp only
  rw [requestsOf, List.filter_singleton,
    issuesToPim_accept s.isPimChannel m index landing rfl rfl]
  cases s.isPimChannel m <;> rfl

/-- **A part of a cycle asks the overlay about the request it issues, and about no other.** -/
theorem op_asks (bp : BackPressure) (o : Op) : Unasked s (s.op bp o) ∨
    ∃ t m front index, Unasked s (t, []) ∧ s.op bp o = t.accept m front index := by
  cases o with
  | coreRequest coreId => exact .inl (coreRequest_unasked _ coreId)
  | coreResponse coreId => exact .inl (coreResponse_unasked coreId)
  | noteCandidate m => exact .inl ⟨notePimCommandCandidate_pim m s, fun _ h => nomatch h⟩
  | drainHold m => exact .inl (drainHold_unasked _ m)
  | refill m => exact .inl (refill_unasked m)
  | issue m =>
      show Unasked s (s.issue _ m) ∨ ∃ t m' front index, _ ∧ s.issue _ m = _
      unfold issue
      dsimp only
      have hnote : Unasked s (s.noteTlmReadIssueWindow m
          ((s.incoming (bp.issueDramFull m) m).map Prod.fst), []) :=
        ⟨noteTlmReadIssueWindow_pim m _ s, fun _ h => nomatch h⟩
      generalize s.noteTlmReadIssueWindow m _ = t at hnote ⊢
      split
      · exact .inl hnote
      · next front index _ =>
          split
          · exact .inl hnote
          · exact .inr ⟨t, m, front, index, hnote, rfl⟩
  | drainBypass m => exact .inl (drainBypass_unasked _ m)
  | drainSsrcBypass m => exact .inl (drainSsrcBypass_unasked _ m)
  | dramResponse m => exact .inl (dramResponse_unasked _ m)

/-- **What the three calls of the overlay keep, a request on its way keeps.** -/
theorem route_keeps {P : PIMBackend → Prop} (m : Nat) (front : MemoryAccess) (s : Simulator)
    (hssrc : ∀ p ssrc, P p → P (p.trySsrcBypass ssrc m front).2.1)
    (haau : ∀ p, P p → P (p.tryAauBypass m front).2)
    (hpush : ∀ p, P p → P (p.onDramPush m front s.coreCycles).2) (h : P s.pim) :
    P (s.route m front).2.1 := by
  unfold route
  have hs : ∀ r : Bool × PIMBackend × SSRCCoordinator,
      (if (s.pim.active && s.ssrc.isEnabled) = true then s.pim.trySsrcBypass s.ssrc m front
        else (false, s.pim, s.ssrc)) = r → P r.2.1 := by
    rintro r rfl
    split
    · exact hssrc _ _ h
    · exact h
  generalize hr : (if (s.pim.active && s.ssrc.isEnabled) = true then
    s.pim.trySsrcBypass s.ssrc m front else (false, s.pim, s.ssrc)) = r
  have h₁ := hs r hr
  obtain ⟨ssrcBypassed, pim, ssrc⟩ := r
  dsimp only at h₁ ⊢
  split
  · exact h₁
  · split
    · have h₂ := haau pim h₁
      generalize pim.tryAauBypass m front = r at h₂
      obtain ⟨bypassed, pim'⟩ := r
      have h₃ := hpush pim' h₂
      generalize pim'.onDramPush m front s.coreCycles = r at h₃
      obtain ⟨hold, pim''⟩ := r
      dsimp only at h₂ h₃ ⊢
      split
      · exact h₂
      · split <;> exact h₃
    · simpa using h₁

/-- What the overlay keeps of a request on its way, a cycle keeps. -/
theorem op_keeps {P : PIMBackend → Prop}
    (hroute : ∀ (t : Simulator) m front, P t.pim → P (t.route m front).2.1) (bp : BackPressure)
    (o : Op) (h : P s.pim) : P (s.op bp o).1.pim := by
  rcases op_asks (s := s) bp o with hno | ⟨t, m, front, index, hno, heq⟩
  · rw [hno.pim]
    exact h
  · rw [heq, accept_pim]
    refine hroute t m front ?_
    rw [show t.pim = s.pim from hno.pim]
    exact h

theorem route_setup {p : PIMBackend} (t : Simulator) (m : Nat) (front : MemoryAccess)
    (h : p.SameSetup t.pim) : p.SameSetup (t.route m front).2.1 :=
  route_keeps m front t (fun q ssrc hq => hq.trans (q.trySsrcBypass_setup m front ssrc))
    (fun q hq => hq.trans (q.tryAauBypass_setup m front))
    (fun q hq => hq.trans (q.onDramPush_setup m front t.coreCycles)) h

/-- **Every part of a cycle adds what it issues.** -/
theorem op_adds (bp : BackPressure) (o : Op) : Adds s (s.op bp o) := by
  rcases op_asks (s := s) bp o with hno | ⟨t, m, front, index, hno, heq⟩
  · exact hno.adds
  · rw [heq]
    exact hno.adds.trans (e := []) (accept_adds m front index)

theorem runOps_adds (bp : BackPressure) (os : List Op) (s : Simulator) :
    Adds s (runOps bp os s) :=
  runOps_of_op ⟨fun s => (Unasked.nothing s).adds, .trans⟩ (fun _ o => op_adds bp o) os s

/-! ## 4. The runs -/

/-- Between the cycles the overlay serves no request. -/
theorem pimAfter_noService (s : Simulator) (a : MemoryAct) : s.pim.NoService (s.pimAfter a) := by
  cases a with
  | pimCycle => exact s.pim.cycle_noService s.coreCycles
  | requestGtsuSwitch cid newMode npuCycle =>
      exact s.pim.requestGtsuSwitch_noService cid newMode npuCycle
  | switchAllPimTo newMode npuCycle => exact s.pim.switchAllPimTo_noService newMode npuCycle
  | scheduleHold cid untilNpuCycle => exact s.pim.scheduleHold_noService cid untilNpuCycle
  | _ => exact .refl s.pim

/-- Every act adds what it issues. -/
theorem exec_adds {a : MemoryAct} {r : Simulator × List Transfer} (hr : s.exec a = some r) :
    Adds s r := by
  by_cases ha : ∃ bp, a = .icntCycle bp
  · obtain ⟨bp, rfl⟩ := ha
    cases hr
    exact runOps_adds bp s.ops s
  · have hb := exec_between hr fun bp heq => ha ⟨bp, heq⟩
    refine .none (funext fun m => exec_isPimChannel hr m) ?_ fun v hv => ?_
    · rw [hb.pim]
      exact (s.pimAfter_noService a).traffic
    · rw [Transfer.accepts, (hb.transfers v hv).2, Bool.false_and]

end Simulator

/-- What a run adds. -/
theorem run_adds {c : MemorySetup} {as : List MemoryAct} {s : Simulator} {h : List Transfer}
    (hr : c.run as = some (s, h)) : Adds c.start (s, h) := by
  refine (exec_of_run hr).invariant (P := fun s h => Adds c.start (s, h))
    (Unasked.nothing c.start).adds ?_
  intro t h a t' ht hs
  obtain ⟨e, hexec, hobs⟩ := machine_step hs
  rw [hobs]
  exact ht.trans (exec_adds hexec)

/-- **The request counters are those of the requests issued to PIM channels**, each of them once,
    whichever way it takes; no other request is counted. -/
theorem pim_counts_once {c : MemorySetup} {as : List MemoryAct} {s : Simulator} {h : List Transfer}
    (hr : c.run as = some (s, h)) :
    (requestsOf (Transfer.issuesToPim c.start.isPimChannel) h).Nodup ∧
      s.pim.stats.traffic.CountsOf (requestsOf (Transfer.issuesToPim c.start.isPimChannel) h) := by
  constructor
  · refine List.nodup_iff_count_le_one.mpr ((MemorySetup.account hr).once Place.closed_accepted ?_)
    intro v hv hissue
    exact accepts_entering hv (Bool.and_eq_true_iff.mp hissue).1
  · have ht := (run_adds hr).traffic
    rw [show c.start.pim.traffic = {} from PIMBackend.new_traffic c.config] at ht
    rw [show s.pim.stats.traffic = _ from ht]
    exact PIMTraffic.foldl_add _

/-- A run that parks a request, releases it, and pushes a second one. -/
theorem pim_counts_once_sample : ∃ s h,
    memorySample.run (parking ++ [.coreCycle, .coreCycle, .icntCycle {}] ++ arriving) =
      some (s, h) ∧
    ((∃ v ∈ h, v.src = some (.hold 0)) ∧ s.pim.stats.totalPimRequests = 2 ∧
      s.pim.stats.totalPimWriteBytes = 64) ∧
    (requestsOf (Transfer.issuesToPim memorySample.start.isPimChannel) h).Nodup ∧
      s.pim.stats.traffic.CountsOf
        (requestsOf (Transfer.issuesToPim memorySample.start.isPimChannel) h) := by
  obtain ⟨⟨s, h⟩, hrun, hend⟩ := (Option.any_eq_true _ _).mp (show
    (memorySample.run (parking ++ [.coreCycle, .coreCycle, .icntCycle {}] ++ arriving)).any
      (fun r => r.2.any (fun v => v.src = some (.hold 0)) && r.1.pim.stats.totalPimRequests = 2 &&
        r.1.pim.stats.totalPimWriteBytes = 64) = true by decide +kernel)
  simp only [Bool.and_eq_true, decide_eq_true_eq] at hend
  obtain ⟨⟨hreleased, hrequests⟩, hbytes⟩ := hend
  obtain ⟨v, hv, hsrc⟩ := List.any_eq_true.mp hreleased
  exact ⟨s, h, hrun, ⟨⟨v, hv, by simpa using hsrc⟩, hrequests, hbytes⟩, pim_counts_once hrun⟩

end Ahasd
