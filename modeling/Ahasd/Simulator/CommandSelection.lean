/-
  File:      Ahasd/Simulator/CommandSelection.lean
  Subject:   WHICH COMMAND A PIM CHANNEL ISSUES (`select_pim_command`, Simulator.cc).

  Three scans over the command queue: for a read of the target model that the DRAM backend takes,
  for any command that it takes, and for a read that it does not take. The command is removed by its
  index after the request was put where it lands.

  * `Oldest`: a command is the first of its kind; `oldest_of_findIdx`: so is what a scan finds;
  * `Selected`: what the selection promises; `selectPimCommand_selected`;
  * `issue_selected`: what the issue of the selected command does to the queue;
  * **`select_pim_command_priority`**: both, for any queue and any back-pressure.
-/
import Ahasd.Simulator.Turns

namespace Ahasd

/-- The command at `i` is of the kind, and none before it is. -/
structure Oldest (kind : MemoryAccess → Bool) (queue : List MemoryAccess) (i : Nat) : Prop where
  found : ∃ access, queue[i]? = some access ∧ kind access = true
  before : ∀ j < i, ∀ access, queue[j]? = some access → kind access = false

theorem oldest_of_findIdx {kind : MemoryAccess → Bool} {queue : List MemoryAccess} {i : Nat}
    (h : queue.findIdx? kind = some i) : Oldest kind queue i := by
  obtain ⟨hi, hfound, hbefore⟩ := List.findIdx?_eq_some_iff_getElem.mp h
  refine ⟨⟨_, List.getElem?_eq_getElem hi, hfound⟩, fun j hj access haccess => ?_⟩
  obtain ⟨hlt, rfl⟩ := List.getElem?_eq_some_iff.mp haccess
  exact Bool.eq_false_iff.mpr (hbefore j hj)

theorem Oldest.valid {kind : MemoryAccess → Bool} {queue : List MemoryAccess} {i : Nat}
    (h : Oldest kind queue i) : i < queue.length := by
  obtain ⟨access, haccess, _⟩ := h.found
  exact (List.getElem?_eq_some_iff.mp haccess).1

/-- The read of the target model is accepted by the DRAM backend. -/
def acceptsTlmRead (full : MemoryAccess → Bool) (access : MemoryAccess) : Bool :=
  Simulator.isTlmRead access && !full access

/-- **What the selection promises**: an index of the queue, a command that is accepted if one is,
    and of those the oldest read of the target model, or the oldest if there is none. -/
structure Selected (full : MemoryAccess → Bool) (queue : List MemoryAccess) (i : Nat) : Prop where
  valid : i < queue.length
  accepted : (∃ access ∈ queue, full access = false) →
    ∃ access, queue[i]? = some access ∧ full access = false
  tlmRead : (∃ access ∈ queue, Simulator.isTlmRead access = true ∧ full access = false) →
    Oldest (acceptsTlmRead full) queue i
  other : (∃ access ∈ queue, full access = false) →
    (¬ ∃ access ∈ queue, Simulator.isTlmRead access = true ∧ full access = false) →
      Oldest (fun access => !full access) queue i

namespace Simulator

variable {s : Simulator} {m : Nat}

/-- **The three scans keep the promise.** -/
theorem selectPimCommand_selected (full : MemoryAccess → Bool)
    (hsched : s.config.enablePimCmdSched = true) (hq : (s.channels m).pimCmdOooQueue ≠ []) :
    Selected full (s.channels m).pimCmdOooQueue (s.selectPimCommand full m) := by
  unfold selectPimCommand
  dsimp only
  generalize (s.channels m).pimCmdOooQueue = queue at hq
  have hpos : 0 < queue.length := List.length_pos_iff.mpr hq
  rw [if_neg (by simpa using hq), if_neg (by simp [hsched])]
  split
  · next i hread =>
      -- an accepted read
      have hold : Oldest (acceptsTlmRead full) queue i := oldest_of_findIdx hread
      obtain ⟨access, haccess, hkind⟩ := hold.found
      have hkinds : isTlmRead access = true ∧ full access = false := by
        simpa [acceptsTlmRead] using hkind
      refine ⟨hold.valid, fun _ => ⟨access, haccess, hkinds.2⟩, fun _ => hold, fun _ hnone => ?_⟩
      exact absurd ⟨access, List.mem_of_getElem? haccess, hkinds⟩ hnone
  · next hnoread =>
      have hnone : ¬ ∃ access ∈ queue, isTlmRead access = true ∧ full access = false := by
        rintro ⟨access, haccess, hread, hfull⟩
        have hkind := List.findIdx?_eq_none_iff.mp hnoread access haccess
        simp [hread, hfull] at hkind
      split
      · next i hany =>
          -- any accepted command
          have hold : Oldest (fun access => !full access) queue i := oldest_of_findIdx hany
          obtain ⟨access, haccess, hkind⟩ := hold.found
          refine ⟨hold.valid, fun _ => ⟨access, haccess, by simpa using hkind⟩,
            fun h => absurd h hnone, fun _ _ => hold⟩
      · next hnoany =>
          have hblocked : ¬ ∃ access ∈ queue, full access = false := by
            rintro ⟨access, haccess, hfull⟩
            have hkind := List.findIdx?_eq_none_iff.mp hnoany access haccess
            simp [hfull] at hkind
          refine ⟨?_, fun h => absurd h hblocked, fun h => absurd h hnone,
            fun h => absurd h hblocked⟩
          cases hread : queue.findIdx? isTlmRead with
          | none => exact hpos
          | some i => exact (oldest_of_findIdx hread).valid

/-- The selected command is what a PIM channel may issue. -/
theorem incoming_selected (full : MemoryAccess → Bool) (hpim : s.isPimChannel m = true)
    (hq : (s.channels m).pimCmdOooQueue ≠ []) : s.incoming full m =
      ((s.channels m).pimCmdOooQueue[s.selectPimCommand full m]?).map
        (·, some (s.selectPimCommand full m)) := by
  unfold incoming
  dsimp only
  rw [if_pos (by simpa [hpim] using hq)]

/-- The command queue of the channel after the issue of the command at `i`, and those of the
    others. -/
structure Removes (s : Simulator) (m i : Nat) (t : Simulator) : Prop where
  queue : (t.channels m).pimCmdOooQueue =
    (s.channels m).pimCmdOooQueue.take i ++ (s.channels m).pimCmdOooQueue.drop (i + 1)
  others : ∀ m', m' ≠ m → t.channels m' = s.channels m'

theorem accept_removes (m : Nat) (front : MemoryAccess) (i : Nat) :
    Removes s m i (s.accept m front (some i)).1 ∧
      ∃ landing, (s.accept m front (some i)).2 = [s.acceptOf m front (some i) landing] := by
  unfold accept
  obtain ⟨landing, pim, ssrc⟩ := s.route m front
  dsimp only
  refine ⟨?_, landing, rfl⟩
  have hmoved : Removes s m i ({ s with pim := pim, ssrc := ssrc }.updateChannel m fun ch =>
      takeIncoming (some i) (s.land front ch landing)) := by
    refine ⟨?_, fun m' hne => Function.update_of_ne hne _ _⟩
    rw [← List.eraseIdx_eq_take_drop_succ]
    cases landing <;> simp [updateChannel, takeIncoming, land, dramPush]
  cases hissues : landing.issues with
  | false => exact ⟨hmoved.queue, hmoved.others⟩
  | true =>
      have hch := (notePimCommandIssued_steady m ({ s with pim := pim, ssrc := ssrc }.updateChannel m
        fun ch => takeIncoming (some i) (s.land front ch landing))).2
      exact ⟨by rw [← hmoved.queue]; exact congrArg (fun c => (c m).pimCmdOooQueue) hch,
        fun m' hne => (congrFun hch m').trans (hmoved.others m' hne)⟩

/-- **The issue of the selected command**: nothing while the DRAM backend does not take it,
    otherwise it leaves the queue, and only it. -/
theorem issue_selected (full : MemoryAccess → Bool) (hpim : s.isPimChannel m = true)
    {front : MemoryAccess}
    (hfront : (s.channels m).pimCmdOooQueue[s.selectPimCommand full m]? = some front) :
    if full front then (s.issue full m).1.channels = s.channels ∧ (s.issue full m).2 = []
    else Removes s m (s.selectPimCommand full m) (s.issue full m).1 ∧
      ∃ landing, (s.issue full m).2 =
        [s.acceptOf m front (some (s.selectPimCommand full m)) landing] := by
  have hq : (s.channels m).pimCmdOooQueue ≠ [] := fun hnil => by
    rw [hnil] at hfront
    cases hfront
  have hin := s.incoming_selected full hpim hq
  rw [hfront] at hin
  have hst := noteTlmReadIssueWindow_steady m (some front) s
  have hch := noteTlmReadIssueWindow_channels m (some front) s
  unfold issue
  rw [hin]
  simp only [Option.map_some]
  generalize s.noteTlmReadIssueWindow m (some front) = t at hst hch ⊢
  cases hfull : full front with
  | true => exact ⟨hch, rfl⟩
  | false =>
      obtain ⟨hremoves, landing, htransfer⟩ :=
        accept_removes (s := t) m front (s.selectPimCommand full m)
      refine ⟨⟨by rw [← hch]; exact hremoves.queue, fun m' hne => ?_⟩, landing, htransfer.trans ?_⟩
      · exact (hremoves.others m' hne).trans (congrFun hch m')
      · unfold acceptOf
        rw [hst.coreCycles, hst.holdUntil]

/-- **The selection and the issue of a PIM command**, for every command queue that is not empty and
    every back-pressure of the DRAM backend. The selected index is one of the queue; its command is
    accepted if some command is, the oldest accepted read of the target model if there is one, and
    otherwise the oldest accepted command. The issue takes exactly this command from the queue and
    leaves the others in their order; while the DRAM backend does not take it, the issue changes no
    queue. -/
theorem select_pim_command_priority (full : MemoryAccess → Bool)
    (hsched : s.config.enablePimCmdSched = true) (hq : (s.channels m).pimCmdOooQueue ≠ []) :
    Selected full (s.channels m).pimCmdOooQueue (s.selectPimCommand full m) ∧
      ∃ front, (s.channels m).pimCmdOooQueue[s.selectPimCommand full m]? = some front ∧
        (s.isPimChannel m = true →
          if full front then (s.issue full m).1.channels = s.channels ∧ (s.issue full m).2 = []
          else Removes s m (s.selectPimCommand full m) (s.issue full m).1 ∧
            ∃ landing, (s.issue full m).2 =
              [s.acceptOf m front (some (s.selectPimCommand full m)) landing]) := by
  have hselected := selectPimCommand_selected full hsched hq
  have hfront := List.getElem?_eq_getElem hselected.valid
  exact ⟨hselected, _, hfront, fun hpim => issue_selected full hpim hfront⟩

/-- A channel with two commands, the second one a read of the target model. -/
def selectionSample : Simulator :=
  let c := { memorySample with config := { memorySample.config with enablePimCmdSched := true } }
  { c.start with
    channels := fun _ =>
      { pimCmdOooQueue := [sampleAccess,
          { sampleAccess with write := false, specTaskType := LangTaskType.verify.code }] } }

/-- The read goes first, and the write stays. -/
theorem select_pim_command_priority_sample :
    selectionSample.selectPimCommand (fun _ => false) 0 = 1 ∧
      ((selectionSample.issue (fun _ => false) 0).1.channels 0).pimCmdOooQueue = [sampleAccess] := by
  have hindex : selectionSample.selectPimCommand (fun _ => false) 0 = 1 := by decide +kernel
  obtain ⟨_, front, _, hissue⟩ := select_pim_command_priority (s := selectionSample) (m := 0)
    (fun _ => false) rfl (by decide +kernel)
  have hremoves := (hissue (by decide +kernel)).1
  rw [hindex] at hremoves
  exact ⟨hindex, hremoves.queue⟩

end Simulator

end Ahasd
