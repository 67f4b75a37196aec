/-
  File:      Ahasd/Simulator/Deadlines.lean
  Subject:   THE DEADLINES IN THE TIMED QUEUES OF A CHANNEL.

  The hold queue and the two bypass queues are drained from the front only. A bypass adds a fixed
  latency to the clock; a hold adds what is left of the channel's deadline, in 32 bits, and the
  deadline is put off by switches and holds at any time.

  * `latest`: the deadline an entry made now gets, which no earlier entry exceeds and which only
    grows;
  * `op_serves`, `exec_timely`: what the parts of a cycle and the other acts do to the queues;
  * `deadlines_in_order`: in every state of every run the deadlines do not decrease from front to
    back, so nothing due waits behind something that is not.
-/
import Ahasd.Lib.TimedQueue
import Ahasd.Simulator.PIMTraffic

namespace Ahasd

open Transition TimedQueue Simulator

/-- The queues of a channel whose entries carry a deadline. -/
inductive Timed where
  | hold
  | aauBypass
  | ssrcBypass
  deriving DecidableEq, Repr

def Channel.timed (ch : Channel) : Timed → List (Nat × MemoryAccess)
  | .hold => ch.pimHoldQueue
  | .aauBypass => ch.pimBypassQueue
  | .ssrcBypass => ch.pimSsrcBypassQueue

namespace Simulator

variable {s s' : Simulator}

/-! ## 1. The deadline an entry gets -/

/-- The deadline of an entry made now. -/
def latest (s : Simulator) (m : Nat) : Timed → Nat
  | .hold => min (s.pim.holdUntil m) (s.coreCycles + (2 ^ 32 - 1))
  | .aauBypass => s.coreCycles + s.pim.aauBypassNpuCycles
  | .ssrcBypass => s.coreCycles + s.pim.ssrcBypassNpuCycles

/-- As the clock advances and the holds are put off, it only grows. -/
theorem latest_le (hclock : s.coreCycles ≤ s'.coreCycles)
    (hholds : ∀ m, s.pim.holdUntil m ≤ s'.pim.holdUntil m)
    (hlat : s.pim.SameSetup s'.pim) (m : Nat) (k : Timed) : s.latest m k ≤ s'.latest m k := by
  cases k with
  | hold =>
      have hm := hholds m
      show min _ _ ≤ min _ _
      omega
  | aauBypass =>
      show _ + _ ≤ _ + _
      rw [hlat.aau]
      omega
  | ssrcBypass =>
      show _ + _ ≤ _ + _
      rw [hlat.ssrc]
      omega

/-- A hold that goes round by subtraction and addition ends at the latest deadline. -/
theorem hold_latest {m cycles : Nat} (h : s.LandsAt m (.hold cycles)) :
    s.coreCycles + cycles = s.latest m .hold := by
  obtain ⟨_, hlt, rfl⟩ := h
  show _ = min _ _
  omega

/-! ## 2. What the parts of a cycle do to the queues -/

/-- The queues of every channel are served. -/
def Serves (s s' : Simulator) : Prop :=
  ∀ m k, Served (s.latest m k) ((s.channels m).timed k) ((s'.channels m).timed k)

theorem Serves.untouched (hch : ∀ m k, (s'.channels m).timed k = (s.channels m).timed k) :
    Serves s s' := by
  intro m k
  rw [hch]
  exact .none _

theorem Serves.refl (s : Simulator) : Serves s s := .untouched fun _ _ => rfl

/-- One channel is served. -/
theorem Serves.at {m : Nat} {f : Channel → Channel}
    (hch : s'.channels = (s.updateChannel m f).channels)
    (hf : ∀ k, Served (s.latest m k) ((s.channels m).timed k) ((f (s.channels m)).timed k)) :
    Serves s s' := by
  intro x k
  rw [hch]
  by_cases hx : x = m
  · subst hx
    simpa [updateChannel] using hf k
  · simpa [updateChannel, Function.update_of_ne hx] using Served.none _

theorem drainHold_serves (full : MemoryAccess → Bool) (m : Nat) :
    Serves s (s.drainHold full m).1 := by
  unfold drainHold
  split
  · exact .refl s
  · next deadline front rest heq =>
      split
      · refine .at (notePimCommandIssued_steady m _).2 fun k => ?_
        cases k with
        | hold =>
            show Served _ (s.channels m).pimHoldQueue rest
            rw [heq]
            exact .front _ _
        | _ => exact .none _
      · exact .refl s

theorem refill_timed (m x : Nat) (k : Timed) :
    ((s.refill m).1.channels x).timed k = (s.channels x).timed k := by
  refine refill_of_moved (R := fun s r => (r.1.channels x).timed k = (s.channels x).timed k)
    ⟨fun _ => rfl, fun h h' => h'.trans h⟩ (fun s front icnt _ => ?_) s
  by_cases hx : x = m
  · subst hx
    simp only [updateChannel, Function.update_self]
    cases k <;> rfl
  · simp only [updateChannel, Function.update_of_ne hx]

theorem refill_serves (m : Nat) : Serves s (s.refill m).1 :=
  .untouched (refill_timed m)

/-- **An issue puts at most one entry into the queues**, at the back and with the latest
    deadline. -/
theorem land_served {m : Nat} {landing : Landing} (hl : s.LandsAt m landing) (front : MemoryAccess)
    (index : Option Nat) (k : Timed) :
    Served (s.latest m k) ((s.channels m).timed k)
      ((takeIncoming index (s.land front (s.channels m) landing)).timed k) := by
  have htake : ∀ ch : Channel, (takeIncoming index ch).timed k = ch.timed k := by
    intro ch
    cases index <;> cases k <;> rfl
  rw [htake]
  cases landing with
  | ssrcBypass =>
      cases k with
      | ssrcBypass => exact .back _ _
      | _ => exact .none _
  | aauBypass =>
      cases k with
      | aauBypass => exact .back _ _
      | _ => exact .none _
  | dram => cases k <;> exact .none _
  | hold cycles =>
      cases k with
      | hold =>
          show Served _ _ (_ ++ [(s.coreCycles + cycles, front)])
          rw [hold_latest hl]
          exact .back _ _
      | _ => exact .none _

theorem accept_serves (m : Nat) (front : MemoryAccess) (index : Option Nat) :
    Serves s (s.accept m front index).1 := by
  have hroute := s.route_spec m front
  unfold accept
  generalize s.route m front = r at hroute
  obtain ⟨landing, pim, ssrc⟩ := r
  refine .at (m := m) (f := fun ch => takeIncoming index (s.land front ch landing)) ?_
    fun k => land_served hroute.lands front index k
  dsimp only
  split
  · exact (notePimCommandIssued_steady m _).2
  · rfl

theorem issue_serves (full : MemoryAccess → Bool) (m : Nat) : Serves s (s.issue full m).1 := by
  unfold issue
  dsimp only
  have hst := noteTlmReadIssueWindow_steady m ((s.incoming full m).map Prod.fst) s
  have hch := noteTlmReadIssueWindow_channels m ((s.incoming full m).map Prod.fst) s
  have hpim := noteTlmReadIssueWindow_pim m ((s.incoming full m).map Prod.fst) s
  generalize s.noteTlmReadIssueWindow m ((s.incoming full m).map Prod.fst) = t at hst hch hpim
  have hnote : Serves s t := .untouched fun x k => by rw [hch]
  split
  · exact hnote
  · split
    · exact hnote
    · next front index _ _ =>
        intro x k
        have hacc := accept_serves (s := t) m front index x k
        have hlatest : t.latest x k = s.latest x k := by
          cases k <;> (unfold Simulator.latest; rw [hpim, hst.coreCycles])
        rw [hlatest, hch] at hacc
        exact hacc

theorem drainBypass_serves (full : MemoryAccess → Bool) (m : Nat) :
    Serves s (s.drainBypass full m).1 := by
  unfold drainBypass
  split
  · exact .refl s
  · next ready front rest heq =>
      split
      · refine .at (icntPush_channels _ _ _) fun k => ?_
        cases k with
        | aauBypass =>
            show Served _ (s.channels m).pimBypassQueue rest
            rw [heq]
            exact .front _ _
        | _ => exact .none _
      · exact .refl s

theorem drainSsrcBypass_serves (full : MemoryAccess → Bool) (m : Nat) :
    Serves s (s.drainSsrcBypass full m).1 := by
  unfold drainSsrcBypass
  split
  · exact .refl s
  · next ready front rest heq =>
      split
      · refine .at (icntPush_channels _ _ _) fun k => ?_
        cases k with
        | ssrcBypass =>
            show Served _ (s.channels m).pimSsrcBypassQueue rest
            rw [heq]
            exact .front _ _
        | _ => exact .none _
      · exact .refl s

theorem dramResponse_serves (full : MemoryAccess → Bool) (m : Nat) :
    Serves s (s.dramResponse full m).1 := by
  unfold dramResponse
  split
  · exact .refl s
  · split
    · exact .refl s
    · refine .at (icntPush_channels _ _ _) fun k => ?_
      cases k <;> exact .none _

/-- **Every part of a cycle serves the queues.** -/
theorem op_serves (bp : BackPressure) (o : Op) : Serves s (s.op bp o).1 := by
  have hl := op_local (s := s) bp o
  cases o with
  | coreRequest coreId =>
      exact .untouched fun m k => by rw [hl.channels m (by simp [Op.memId])]
  | coreResponse coreId =>
      exact .untouched fun m k => by rw [hl.channels m (by simp [Op.memId])]
  | noteCandidate memId =>
      refine .untouched fun m k => ?_
      show ((s.notePimCommandCandidate memId).channels m).timed k = _
      rw [(s.notePimCommandCandidate_steady memId).2]
  | drainHold memId => exact drainHold_serves _ memId
  | refill memId => exact refill_serves memId
  | issue memId => exact issue_serves _ memId
  | drainBypass memId => exact drainBypass_serves _ memId
  | drainSsrcBypass memId => exact drainSsrcBypass_serves _ memId
  | dramResponse memId => exact dramResponse_serves _ memId

/-! ## 3. The order of the deadlines -/

/-- The deadlines of every queue do not decrease, and none is after the latest one. -/
def Timely (s : Simulator) : Prop :=
  ∀ m k, UpTo (s.latest m k) ((s.channels m).timed k)

theorem Serves.timely (hs : Serves s s') (hlat : ∀ m k, s.latest m k ≤ s'.latest m k)
    (h : Timely s) : Timely s' := fun m k =>
  ((h m k).served (hs m k)).mono (hlat m k)

/-- Every part of a cycle keeps the order. -/
theorem op_timely (bp : BackPressure) (o : Op) (h : Timely s) : Timely (s.op bp o).1 := by
  have hst := (op_local (s := s) bp o).steady
  have hlat := op_keeps (P := s.pim.SameSetup) route_setup bp o (.refl s.pim)
  exact (op_serves bp o).timely (latest_le (Nat.le_of_eq hst.coreCycles.symm)
    (fun m => Nat.le_of_eq (hst.holdUntil m).symm) hlat) h

theorem runOps_timely (bp : BackPressure) (os : List Op) (s : Simulator) :
    Timely s → Timely (runOps bp os s).1 :=
  runOps_of_op (R := fun s r => Timely s → Timely r.1) ⟨fun _ h => h, fun h h' hs => h' (h hs)⟩
    (fun _ o => op_timely bp o) os s

/-- Between the cycles the queues stay. -/
theorem exec_timed {a : MemoryAct} {r : Simulator × List Transfer} (hr : s.exec a = some r)
    (ha : ∀ bp, a ≠ .icntCycle bp) (m : Nat) (k : Timed) :
    (r.1.channels m).timed k = (s.channels m).timed k := by
  -- a channel whose other fields change
  have hfield : ∀ (x : Nat) (f : Channel → Channel), (∀ ch, (f ch).timed k = ch.timed k) →
      (Function.update s.channels x (f (s.channels x)) m).timed k = (s.channels m).timed k := by
    intro x f hf
    by_cases hm : m = x
    · subst hm
      rw [Function.update_self, hf]
    · rw [Function.update_of_ne hm]
  cases a with
  | load coreId slot access =>
      obtain ⟨_, heq⟩ := Option.ite_none_right_eq_some.mp hr
      cases heq
      rfl
  | store coreId access =>
      obtain ⟨_, heq⟩ := Option.ite_none_right_eq_some.mp hr
      cases heq
      rfl
  | deliver node index =>
      cases node with
      | core coreId =>
          obtain ⟨access, _, rfl⟩ := Option.map_eq_some_iff.mp hr
          rfl
      | memory memId =>
          obtain ⟨access, _, rfl⟩ := Option.map_eq_some_iff.mp hr
          exact hfield memId (fun ch => { ch with icntOutput := ch.icntOutput ++ [access] })
            fun ch => by cases k <;> rfl
  | answer memId index =>
      obtain ⟨_, hanswer, heq⟩ := Option.map_eq_some_iff.mp hr
      obtain ⟨access, _, heq'⟩ := Option.map_eq_some_iff.mp hanswer
      cases heq'
      cases heq
      exact hfield memId (fun ch =>
        { ch with
          dramQueue := ch.dramQueue.eraseIdx index
          dramResponses := ch.dramResponses ++ [access] }) fun ch => by cases k <;> rfl
  | icntCycle bp => exact absurd rfl (ha bp)
  | _ =>
      cases hr
      rfl

/-- **Every act keeps the order.** -/
theorem exec_timely {a : MemoryAct} {r : Simulator × List Transfer} (hr : s.exec a = some r)
    (h : Timely s) : Timely r.1 := by
  by_cases ha : ∃ bp, a = .icntCycle bp
  · obtain ⟨bp, rfl⟩ := ha
    cases hr
    exact runOps_timely bp s.ops s h
  · have hno : ∀ bp, a ≠ .icntCycle bp := fun bp heq => ha ⟨bp, heq⟩
    have hb := exec_between hr hno
    have hserves : Serves s r.1 := .untouched (exec_timed hr hno)
    refine hserves.timely (latest_le hb.coreCycles (fun m => ?_) ?_) h
    · rw [hb.pim]
      exact (s.pimAfter_extends a).holdUntil m
    · rw [hb.pim]
      exact (s.pimAfter_noService a).setup

end Simulator

/-! ## 4. The runs -/

/-- In every state of a run the deadlines are in order. -/
theorem run_timely {c : MemorySetup} {as : List MemoryAct} {s : Simulator} {h : List Transfer}
    (hr : c.run as = some (s, h)) : s.Timely := by
  refine (exec_of_run hr).invariantOn (P := Simulator.Timely) ?_ ?_
  · intro m k
    cases k <;> exact .nil
  · intro t a t' ht hs
    obtain ⟨e, hexec, _⟩ := machine_step hs
    exact exec_timely hexec ht

/-- **In every state of every run the deadlines of each timed queue do not decrease from front to
    back**: a request whose deadline has passed waits only behind requests whose deadlines have
    passed. -/
theorem deadlines_in_order {c : MemorySetup} {as : List MemoryAct} {s : Simulator}
    {h : List Transfer} (hr : c.run as = some (s, h)) (m : Nat) (k : Timed) :
    ((s.channels m).timed k).Pairwise (fun e f => e.1 ≤ f.1) ∧
      ∀ before e after, (s.channels m).timed k = before ++ e :: after → e.1 ≤ s.coreCycles →
        ∀ f ∈ before, f.1 ≤ s.coreCycles := by
  have hq := run_timely hr m k
  exact ⟨hq.inOrder, fun _ _ _ heq hdue => hq.due_before heq hdue⟩

/-- A request parked until cycle 2 and, after a second switch at cycle 1, one parked until cycle
    3. -/
theorem deadlines_in_order_sample : ∃ s h,
    memorySample.run (parking ++ [.coreCycle, .requestGtsuSwitch 0 0 1] ++ arriving) =
      some (s, h) ∧
    ((s.channels 0).timed .hold).map Prod.fst = [2, 3] ∧
    ((s.channels 0).timed .hold).Pairwise (fun e f => e.1 ≤ f.1) ∧
      ∀ before e after, (s.channels 0).timed .hold = before ++ e :: after →
        e.1 ≤ s.coreCycles → ∀ f ∈ before, f.1 ≤ s.coreCycles := by
  obtain ⟨⟨s, h⟩, hrun, hparked⟩ := (Option.any_eq_true _ _).mp (show
    (memorySample.run (parking ++ [.coreCycle, .requestGtsuSwitch 0 0 1] ++ arriving)).any
      (fun r => ((r.1.channels 0).timed .hold).map Prod.fst = [2, 3]) = true by decide +kernel)
  exact ⟨s, h, hrun, by simpa using hparked, deadlines_in_order hrun 0 .hold⟩

end Ahasd
