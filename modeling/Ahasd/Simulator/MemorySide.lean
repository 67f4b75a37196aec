/-
  File:      Ahasd/Simulator/MemorySide.lean
  Subject:   THE MEMORY SIDE OF THE SIMULATOR (Simulator.cc, the interconnect part of `cycle`).

  Requests go from the cores over the interconnect to the memory nodes, one per DRAM channel, and
  come back the same way. A memory node of a PIM channel puts a command queue, a hold queue and two
  bypass queues between the interconnect and the DRAM backend. The interconnect and the backends are
  bags: what was put in comes out once, in any order; whether they take a request is asked of
  `BackPressure`.

  * `Core`, `Channel`, `Simulator`: the state;
  * `Op`, `Simulator.op`: the parts of one interconnect cycle, in the order of the source (`ops`);
  * `Transfer`: a request taken from one place and put into another, as the operations report it;
  * `MemoryAct`, `Simulator.exec`: the cycle and everything that happens around it;
  * `MemorySetup.run`: the runs.
-/
import Ahasd.Lib.Transition
import Ahasd.Scheduler.SpecDecode

namespace Ahasd

open Transition

/-! ## 1. The state -/

/-- The request, whatever its `request` flag says. -/
def MemoryAccess.identity (access : MemoryAccess) : MemoryAccess := { access with request := false }

/-- A node of the interconnect: `core_id`, or `n_cores + mem_id`. -/
inductive Node where
  | core (coreId : Nat)
  | memory (memId : Nat)
  deriving DecidableEq, Repr

/-- Where a request can be. -/
inductive Place where
  /-- the request queue of its core -/
  | requestQueue (coreId : Nat)
  /-- the interconnect, on its way to a channel -/
  | toMemory (memId : Nat)
  /-- the output of the interconnect at a memory node -/
  | icntOutput (memId : Nat)
  | command (memId : Nat)
  | hold (memId : Nat)
  | aauBypass (memId : Nat)
  | ssrcBypass (memId : Nat)
  | dram (memId : Nat)
  /-- the interconnect, on its way back -/
  | toCore (coreId : Nat)
  | coreOutput (coreId : Nat)
  deriving DecidableEq, Repr

/-- Where the interconnect keeps what goes to a node. -/
def Node.path : Node → Place
  | core coreId => .toCore coreId
  | memory memId => .toMemory memId

/-- Where a load goes: `spad_address` and `buffer_id` of its access, and whether the address is one
    of the accumulator scratchpad. -/
structure SpadSlot where
  accum : Bool
  bufferId : Nat
  address : Nat
  deriving DecidableEq, Repr

/-- `Core`, as the memory side sees it. The loads in flight are kept with the ids of their accesses,
    which carry the slot in the source. -/
structure Core where
  loads : List (SpadSlot × Nat) := []
  waitingWriteReqs : Nat := 0
  requestQueue : List MemoryAccess := []
  deriving DecidableEq

/-- What there is per channel: the queues of the simulator, the output of the interconnect, the DRAM
    backend and its responses. Queue entries of the PIM queues carry the cycle they are ready at. -/
structure Channel where
  icntOutput : List MemoryAccess := []
  pimCmdOooQueue : List MemoryAccess := []
  pimHoldQueue : List (Nat × MemoryAccess) := []
  pimBypassQueue : List (Nat × MemoryAccess) := []
  pimSsrcBypassQueue : List (Nat × MemoryAccess) := []
  dramQueue : List MemoryAccess := []
  dramResponses : List MemoryAccess := []
  deriving DecidableEq

/-- `PimCommandIssueStats`. -/
structure PimCommandIssueStats where
  candidateSlots : Nat := 0
  issuedCommands : Nat := 0
  tlmReadAttempts : Nat := 0
  tlmReadBlocked : Nat := 0
  tlmReadAttemptsActive : Nat := 0
  tlmReadBlockedActive : Nat := 0
  tlmReadAttemptsInactive : Nat := 0
  tlmReadBlockedInactive : Nat := 0
  deriving DecidableEq, Repr

/-- The state. The PIM co-simulation driver is the backend it wraps. -/
structure Simulator where
  config : SimulationConfig
  nCores : Nat
  /-- `get_channel_id`: the channel of a DRAM address -/
  channelId : Nat → Nat
  coreCycles : Nat := 0
  pim : PIMBackend
  ssrc : SSRCCoordinator
  cores : Nat → Core := fun _ => {}
  channels : Nat → Channel := fun _ => {}
  toMemory : Nat → List MemoryAccess := fun _ => []
  toCore : Nat → List MemoryAccess := fun _ => []
  coreOutput : Nat → List MemoryAccess := fun _ => []
  pimCmdStats : PimCommandIssueStats := {}
  totNrFromCore : Nat := 0
  totNrToCore : Nat := 0
  totNrToMem : Nat := 0
  totNrFromMem : Nat := 0
  /-- `generate_mem_access_id` -/
  memAccessIds : Nat := 0

/-- A request left `src` (`none`: a core made it) and went to `dst` (`none`: its core got the
    answer), at an NPU cycle and under a hold deadline of the channel. -/
structure Transfer where
  access : MemoryAccess
  src : Option Place
  dst : Option Place
  npuCycle : Nat := 0
  holdUntil : Nat := 0
  deriving DecidableEq

/-- What `is_full` answers, of the interconnect and of the DRAM backend, at each place of a cycle
    that asks. -/
structure BackPressure where
  coreIcntFull : Nat → MemoryAccess → Bool := fun _ _ => false
  holdDramFull : Nat → MemoryAccess → Bool := fun _ _ => false
  issueDramFull : Nat → MemoryAccess → Bool := fun _ _ => false
  bypassIcntFull : Nat → MemoryAccess → Bool := fun _ _ => false
  ssrcBypassIcntFull : Nat → MemoryAccess → Bool := fun _ _ => false
  responseIcntFull : Nat → MemoryAccess → Bool := fun _ _ => false

namespace Simulator

/-- The number of memory nodes. -/
def nMemories (s : Simulator) : Nat := s.config.dramChannels

def updateCore (s : Simulator) (coreId : Nat) (f : Core → Core) : Simulator :=
  { s with cores := Function.update s.cores coreId (f (s.cores coreId)) }

def updateChannel (s : Simulator) (memId : Nat) (f : Channel → Channel) : Simulator :=
  { s with channels := Function.update s.channels memId (f (s.channels memId)) }

/-- `is_pim_channel`. -/
def isPimChannel (s : Simulator) (memId : Nat) : Bool :=
  s.pim.active && s.pim.isPimChannel memId

/-- `get_dest_node`. -/
def getDestNode (s : Simulator) (access : MemoryAccess) : Node :=
  if access.request then .memory (s.channelId access.dramAddress) else .core access.coreId

/-- The interconnect's `push`. -/
def icntPush (s : Simulator) (access : MemoryAccess) : Node → Simulator
  | .core coreId =>
      { s with toCore := Function.update s.toCore coreId (s.toCore coreId ++ [access]) }
  | .memory memId =>
      { s with toMemory := Function.update s.toMemory memId (s.toMemory memId ++ [access]) }

/-! ## 2. The cores and the interconnect -/

/-- A core's request into the interconnect. -/
def coreRequest (full : MemoryAccess → Bool) (coreId : Nat) (s : Simulator) :
    Simulator × List Transfer :=
  match (s.cores coreId).requestQueue with
  | [] => (s, [])
  | access :: rest =>
      let front := { access with coreId := coreId }
      if full front then
        (s.updateCore coreId fun c => { c with requestQueue := front :: rest }, [])
      else
        let dest := s.getDestNode front
        let s' := (s.icntPush front dest).updateCore coreId fun c => { c with requestQueue := rest }
        ({ s' with totNrFromCore := s'.totNrFromCore + 1 },
          [{ access := front.identity
             src := some (.requestQueue coreId)
             dst := some dest.path
             npuCycle := s.coreCycles }])

/-- `push_memory_response`; what it does to the scratchpads is the core's (Npu/Core.lean). -/
def pushMemoryResponse (response : MemoryAccess) (c : Core) : Core :=
  if response.write then { c with waitingWriteReqs := c.waitingWriteReqs - 1 }
  else { c with loads := c.loads.filter fun l => l.2 ≠ response.id }

/-- A response of the interconnect into its core. -/
def coreResponse (coreId : Nat) (s : Simulator) : Simulator × List Transfer :=
  match s.coreOutput coreId with
  | [] => (s, [])
  | response :: rest =>
      let s' := s.updateCore coreId (pushMemoryResponse response)
      ({ s' with
          coreOutput := Function.update s.coreOutput coreId rest
          totNrToCore := s.totNrToCore + 1 },
        [{ access := response.identity
           src := some (.coreOutput coreId)
           dst := none
           npuCycle := s.coreCycles }])

/-! ## 3. The memory nodes -/

/-- `note_pim_command_candidate`, asked at the start of a node's turn. -/
def notePimCommandCandidate (memId : Nat) (s : Simulator) : Simulator :=
  let ch := s.channels memId
  if s.isPimChannel memId && (!ch.pimHoldQueue.isEmpty || !ch.pimCmdOooQueue.isEmpty ||
      !ch.icntOutput.isEmpty) then
    { s with pimCmdStats := { s.pimCmdStats with
      candidateSlots := s.pimCmdStats.candidateSlots + 1 } }
  else s

/-- `note_pim_command_issued`. -/
def notePimCommandIssued (memId : Nat) (s : Simulator) : Simulator :=
  if s.isPimChannel memId then
    { s with pimCmdStats := { s.pimCmdStats with
      issuedCommands := s.pimCmdStats.issuedCommands + 1 } }
  else s

/-- The DRAM backend's `push`. -/
def dramPush (access : MemoryAccess) (ch : Channel) : Channel :=
  { ch with dramQueue := ch.dramQueue ++ [{ access with request := false }] }

/-- The hold queue's turn: its front, if its deadline is over, goes to the DRAM backend. -/
def drainHold (full : MemoryAccess → Bool) (memId : Nat) (s : Simulator) :
    Simulator × List Transfer :=
  match (s.channels memId).pimHoldQueue with
  | [] => (s, [])
  | (deadline, front) :: rest =>
      if s.pim.active = true ∧ deadline ≤ s.coreCycles ∧ full front = false then
        let s' := (s.updateChannel memId fun ch =>
          dramPush front { ch with pimHoldQueue := rest }).notePimCommandIssued memId
        ({ s' with totNrToMem := s'.totNrToMem + 1 },
          [{ access := front.identity
             src := some (.hold memId)
             dst := some (.dram memId)
             npuCycle := s.coreCycles
             holdUntil := s.pim.holdUntil memId }])
      else (s, [])

/-- The loop that fills the command queue. -/
def refillLoop (memId : Nat) : Nat → Simulator → Simulator × List Transfer
  | 0, s => (s, [])
  | n + 1, s =>
      match (s.channels memId).icntOutput with
      | [] => (s, [])
      | front :: icnt =>
          if (s.channels memId).pimCmdOooQueue.length < s.config.pimCmdIssueQueueEntries then
            let r := refillLoop memId n (s.updateChannel memId fun ch =>
              { ch with icntOutput := icnt, pimCmdOooQueue := ch.pimCmdOooQueue ++ [front] })
            (r.1,
              { access := front.identity
                src := some (.icntOutput memId)
                dst := some (.command memId)
                npuCycle := s.coreCycles } :: r.2)
          else (s, [])

/-- The command queue takes what the interconnect has. -/
def refill (memId : Nat) (s : Simulator) : Simulator × List Transfer :=
  if s.isPimChannel memId then refillLoop memId (s.channels memId).icntOutput.length s
  else (s, [])

/-- `is_tlm_read`. -/
def isTlmRead (access : MemoryAccess) : Bool :=
  !access.write && (access.specTaskType == LangTaskType.verify.code ||
    access.specTaskType == LangTaskType.preVerify.code)

/-- `is_draft_command`. -/
def isDraftCommand (access : MemoryAccess) : Bool :=
  access.specTaskType == LangTaskType.draft.code

/-- `select_pim_command`: the index in the command queue. -/
def selectPimCommand (full : MemoryAccess → Bool) (memId : Nat) (s : Simulator) : Nat :=
  let queue := (s.channels memId).pimCmdOooQueue
  if queue.isEmpty then 0
  else if !s.config.enablePimCmdSched then 0
  else
    match queue.findIdx? fun access => isTlmRead access && !full access with
    | some i => i
    | none =>
        match queue.findIdx? fun access => !full access with
        | some i => i
        | none => (queue.findIdx? isTlmRead).getD 0

/-- The request a node may issue, with its index if it waits in the command queue. -/
def incoming (full : MemoryAccess → Bool) (memId : Nat) (s : Simulator) :
    Option (MemoryAccess × Option Nat) :=
  let ch := s.channels memId
  if s.isPimChannel memId && !ch.pimCmdOooQueue.isEmpty then
    let i := s.selectPimCommand full memId
    ch.pimCmdOooQueue[i]?.map (·, some i)
  else ch.icntOutput.head?.map (·, none)

/-- `has_tlm_read_candidate` and `has_draft_command_candidate`: the selected request, the front of
    the hold queue or a waiting command is of the kind. -/
def hasCandidate (kind : MemoryAccess → Bool) (memId : Nat) (selected : Option MemoryAccess)
    (s : Simulator) : Bool :=
  selected.any kind || (s.channels memId).pimHoldQueue.head?.any (fun e => kind e.2) ||
    (s.channels memId).pimCmdOooQueue.any kind

/-- `note_tlm_read_issue_window`. -/
def noteTlmReadIssueWindow (memId : Nat) (selected : Option MemoryAccess) (s : Simulator) :
    Simulator :=
  if !s.isPimChannel memId then s
  else if !s.hasCandidate isTlmRead memId selected then s
  else
    let blocked := if selected.any isTlmRead then 0 else 1
    let st := { s.pimCmdStats with
      tlmReadAttempts := s.pimCmdStats.tlmReadAttempts + 1
      tlmReadBlocked := s.pimCmdStats.tlmReadBlocked + blocked }
    { s with
      pimCmdStats :=
        if s.hasCandidate isDraftCommand memId selected then
          { st with
            tlmReadAttemptsActive := st.tlmReadAttemptsActive + 1
            tlmReadBlockedActive := st.tlmReadBlockedActive + blocked }
        else
          { st with
            tlmReadAttemptsInactive := st.tlmReadAttemptsInactive + 1
            tlmReadBlockedInactive := st.tlmReadBlockedInactive + blocked } }

/-- What becomes of an issued request: a bypass absorbs it, the DRAM backend gets it, or it is held
    for some cycles. -/
inductive Landing where
  | ssrcBypass
  | aauBypass
  | dram
  | hold (cycles : Nat)
  deriving DecidableEq, Repr

/-- The PIM overlay is asked in turn: the SSRC bypass, the AAU bypass, the hold. -/
def route (memId : Nat) (front : MemoryAccess) (s : Simulator) :
    Landing × PIMBackend × SSRCCoordinator :=
  let (ssrcBypassed, pim, ssrc) :=
    if s.pim.active && s.ssrc.isEnabled then s.pim.trySsrcBypass s.ssrc memId front
    else (false, s.pim, s.ssrc)
  if ssrcBypassed then (.ssrcBypass, pim, ssrc)
  else
    let (bypassed, pim) :=
      if s.pim.active then pim.tryAauBypass memId front else (false, pim)
    if bypassed then (.aauBypass, pim, ssrc)
    else
      let (hold, pim) :=
        if s.pim.active then pim.onDramPush memId front s.coreCycles else (0, pim)
      if hold = 0 then (.dram, pim, ssrc) else (.hold hold, pim, ssrc)

/-- The place a request lands in. -/
def Landing.place (memId : Nat) : Landing → Place
  | ssrcBypass => .ssrcBypass memId
  | aauBypass => .aauBypass memId
  | dram => .dram memId
  | hold _ => .hold memId

/-- Whether the request is issued now. -/
def Landing.issues : Landing → Bool
  | hold _ => false
  | _ => true

/-- The request goes to its place. -/
def land (s : Simulator) (front : MemoryAccess) (ch : Channel) : Landing → Channel
  | .ssrcBypass =>
      { ch with pimSsrcBypassQueue := ch.pimSsrcBypassQueue ++
        [(s.coreCycles + s.pim.ssrcBypassNpuCycles, { front with request := false })] }
  | .aauBypass =>
      { ch with pimBypassQueue := ch.pimBypassQueue ++
        [(s.coreCycles + s.pim.aauBypassNpuCycles, { front with request := false })] }
  | .dram => dramPush front ch
  | .hold cycles => { ch with pimHoldQueue := ch.pimHoldQueue ++ [(s.coreCycles + cycles, front)] }

/-- The issued request leaves its queue. -/
def takeIncoming (index : Option Nat) (ch : Channel) : Channel :=
  match index with
  | some i => { ch with pimCmdOooQueue := ch.pimCmdOooQueue.eraseIdx i }
  | none => { ch with icntOutput := ch.icntOutput.tail }

/-- Where the issued request waited. -/
def incomingPlace (memId : Nat) (index : Option Nat) : Place :=
  match index with
  | some _ => .command memId
  | none => .icntOutput memId

/-- A request is issued. -/
def accept (memId : Nat) (front : MemoryAccess) (index : Option Nat) (s : Simulator) :
    Simulator × List Transfer :=
  let (landing, pim, ssrc) := s.route memId front
  let s' := { s with pim := pim, ssrc := ssrc }.updateChannel memId fun ch =>
    takeIncoming index (s.land front ch landing)
  let s' := if landing.issues then s'.notePimCommandIssued memId else s'
  ({ s' with totNrToMem := s'.totNrToMem + 1 },
    [{ access := front.identity
       src := some (incomingPlace memId index)
       dst := some (landing.place memId)
       npuCycle := s.coreCycles
       holdUntil := s.pim.holdUntil memId }])

/-- The issue of a node. -/
def issue (full : MemoryAccess → Bool) (memId : Nat) (s : Simulator) : Simulator × List Transfer :=
  let selected := s.incoming full memId
  let s := s.noteTlmReadIssueWindow memId (selected.map Prod.fst)
  match selected with
  | none => (s, [])
  | some (front, index) => if full front then (s, []) else s.accept memId front index

/-- A response goes into the interconnect. -/
def sendBack (src : Place) (response : MemoryAccess) (s : Simulator) : Simulator × List Transfer :=
  let dest := s.getDestNode response
  let s' := s.icntPush response dest
  ({ s' with totNrFromMem := s'.totNrFromMem + 1 },
    [{ access := response.identity
       src := some src
       dst := some dest.path
       npuCycle := s.coreCycles }])

/-- The AAU bypass queue's turn. -/
def drainBypass (full : MemoryAccess → Bool) (memId : Nat) (s : Simulator) :
    Simulator × List Transfer :=
  match (s.channels memId).pimBypassQueue with
  | [] => (s, [])
  | (ready, front) :: rest =>
      if s.pim.active = true ∧ ready ≤ s.coreCycles ∧ full front = false then
        (s.updateChannel memId fun ch => { ch with pimBypassQueue := rest }).sendBack
          (.aauBypass memId) front
      else (s, [])

/-- The SSRC bypass queue's turn. -/
def drainSsrcBypass (full : MemoryAccess → Bool) (memId : Nat) (s : Simulator) :
    Simulator × List Transfer :=
  match (s.channels memId).pimSsrcBypassQueue with
  | [] => (s, [])
  | (ready, front) :: rest =>
      if s.pim.active = true ∧ ready ≤ s.coreCycles ∧ full front = false then
        (s.updateChannel memId fun ch => { ch with pimSsrcBypassQueue := rest }).sendBack
          (.ssrcBypass memId) front
      else (s, [])

/-- The DRAM response's turn. (`on_dram_pop` does nothing.) -/
def dramResponse (full : MemoryAccess → Bool) (memId : Nat) (s : Simulator) :
    Simulator × List Transfer :=
  match (s.channels memId).dramResponses with
  | [] => (s, [])
  | front :: rest =>
      if full front then (s, [])
      else
        (s.updateChannel memId fun ch => { ch with dramResponses := rest }).sendBack
          (.dram memId) front

end Simulator

/-! ## 4. One interconnect cycle -/

/-- The parts of a cycle. -/
inductive Op where
  | coreRequest (coreId : Nat)
  | coreResponse (coreId : Nat)
  | noteCandidate (memId : Nat)
  | drainHold (memId : Nat)
  | refill (memId : Nat)
  | issue (memId : Nat)
  | drainBypass (memId : Nat)
  | drainSsrcBypass (memId : Nat)
  | dramResponse (memId : Nat)
  deriving DecidableEq, Repr

namespace Simulator

/-- One part. -/
def op (bp : BackPressure) (s : Simulator) : Op → Simulator × List Transfer
  | .coreRequest coreId => s.coreRequest (bp.coreIcntFull coreId) coreId
  | .coreResponse coreId => s.coreResponse coreId
  | .noteCandidate memId => (s.notePimCommandCandidate memId, [])
  | .drainHold memId => s.drainHold (bp.holdDramFull memId) memId
  | .refill memId => s.refill memId
  | .issue memId => s.issue (bp.issueDramFull memId) memId
  | .drainBypass memId => s.drainBypass (bp.bypassIcntFull memId) memId
  | .drainSsrcBypass memId => s.drainSsrcBypass (bp.ssrcBypassIcntFull memId) memId
  | .dramResponse memId => s.dramResponse (bp.responseIcntFull memId) memId

/-- Several parts, one after the other. -/
def runOps (bp : BackPressure) : List Op → Simulator → Simulator × List Transfer
  | [], s => (s, [])
  | o :: os, s =>
      let r := s.op bp o
      let r' := runOps bp os r.1
      (r'.1, r.2 ++ r'.2)

/-- A core's part of a cycle. -/
def coreOps (coreId : Nat) : List Op := [.coreRequest coreId, .coreResponse coreId]

/-- A memory node's turn. -/
def channelOps (memId : Nat) : List Op :=
  [.noteCandidate memId, .drainHold memId, .refill memId, .issue memId, .drainBypass memId,
    .drainSsrcBypass memId, .dramResponse memId]

/-- The parts of a cycle, in order. -/
def ops (s : Simulator) : List Op :=
  (List.range s.nCores).flatMap coreOps ++ (List.range s.nMemories).flatMap channelOps

section Composing

variable {R : Simulator → Simulator × List Transfer → Prop}

/-- What composes and holds of every request the command queue takes, holds of its refill. -/
theorem refill_of_moved (hR : Composes R) {memId : Nat}
    (hmoved : ∀ (s : Simulator) (front : MemoryAccess) (icnt : List MemoryAccess),
      (s.channels memId).icntOutput = front :: icnt →
      R s (s.updateChannel memId fun ch =>
          { ch with icntOutput := icnt, pimCmdOooQueue := ch.pimCmdOooQueue ++ [front] },
        [{ access := front.identity
           src := some (.icntOutput memId)
           dst := some (.command memId)
           npuCycle := s.coreCycles }]))
    (s : Simulator) : R s (s.refill memId) := by
  have hloop : ∀ (n : Nat) (s : Simulator), R s (refillLoop memId n s) := by
    intro n
    induction n with
    | zero => exact hR.nothing
    | succ n ih =>
        intro s
        unfold refillLoop
        cases hq : (s.channels memId).icntOutput with
        | nil => exact hR.nothing s
        | cons front icnt =>
            dsimp only
            split
            · exact hR.trans (hmoved s front icnt hq) (ih _)
            · exact hR.nothing s
  unfold refill
  split
  · exact hloop _ s
  · exact hR.nothing s

/-- What composes and holds of every part, holds of several parts. -/
theorem runOps_of_op (hR : Composes R) {bp : BackPressure}
    (hop : ∀ (s : Simulator) (o : Op), R s (s.op bp o)) (os : List Op) (s : Simulator) :
    R s (runOps bp os s) := by
  induction os generalizing s with
  | nil => exact hR.nothing s
  | cons o os ih => exact hR.trans (hop s o) (ih _)

end Composing

end Simulator

/-! ## 5. The simulator around it -/

/-- What happens to the memory side, in any order: the cores make requests, the clock advances, the
    scheduler switches and holds channels and defers rounds, the interconnect delivers, the backends
    answer, and the interconnect cycle runs. -/
inductive MemoryAct where
  | load (coreId : Nat) (slot : SpadSlot) (access : MemoryAccess)
  | store (coreId : Nat) (access : MemoryAccess)
  | coreCycle
  | pimCycle
  | requestGtsuSwitch (cid newMode npuCycle : Nat)
  | switchAllPimTo (newMode npuCycle : Nat)
  | scheduleHold (cid untilNpuCycle : Nat)
  | ssrc (coordinator : SSRCCoordinator)
  | deliver (node : Node) (index : Nat)
  | answer (memId index : Nat)
  | icntCycle (bp : BackPressure)

namespace Simulator

/-- A core makes a request: `handle_ld_inst_queue` and `handle_st_inst_queue`. -/
def request (coreId : Nat) (access : MemoryAccess) (f : Core → Core) (s : Simulator) :
    Simulator × List Transfer :=
  let access := { access with id := s.memAccessIds, request := true, coreId := coreId }
  let s' := s.updateCore coreId fun c =>
    { f c with requestQueue := c.requestQueue ++ [access] }
  ({ s' with memAccessIds := s'.memAccessIds + 1 },
    [{ access := access.identity
       src := none
       dst := some (.requestQueue coreId)
       npuCycle := s.coreCycles }])

/-- The interconnect brings a packet to the output of its node. -/
def deliver (s : Simulator) (index : Nat) : Node → Option (Simulator × List Transfer)
  | .core coreId =>
      (s.toCore coreId)[index]?.map fun access =>
        ({ s with
            toCore := Function.update s.toCore coreId ((s.toCore coreId).eraseIdx index)
            coreOutput := Function.update s.coreOutput coreId (s.coreOutput coreId ++ [access]) },
          [{ access := access.identity
             src := some (.toCore coreId)
             dst := some (.coreOutput coreId)
             npuCycle := s.coreCycles }])
  | .memory memId =>
      (s.toMemory memId)[index]?.map fun access =>
        ({ s with
            toMemory := Function.update s.toMemory memId ((s.toMemory memId).eraseIdx index)
          }.updateChannel memId fun ch => { ch with icntOutput := ch.icntOutput ++ [access] },
          [{ access := access.identity
             src := some (.toMemory memId)
             dst := some (.icntOutput memId)
             npuCycle := s.coreCycles }])

/-- The DRAM backend answers one of its requests. -/
def answer (s : Simulator) (memId index : Nat) : Option Simulator :=
  (s.channels memId).dramQueue[index]?.map fun access =>
    s.updateChannel memId fun ch =>
      { ch with
        dramQueue := ch.dramQueue.eraseIdx index
        dramResponses := ch.dramResponses ++ [access] }

/-- One act, with the transfers it makes. -/
def exec (s : Simulator) : MemoryAct → Option (Simulator × List Transfer)
  | .load coreId slot access =>
      if coreId < s.nCores then
        some (s.request coreId { access with write := false } fun c =>
          { c with loads := c.loads ++ [(slot, s.memAccessIds)] })
      else none
  | .store coreId access =>
      if coreId < s.nCores then
        some (s.request coreId { access with write := true } fun c =>
          { c with waitingWriteReqs := c.waitingWriteReqs + 1 })
      else none
  | .coreCycle => some ({ s with coreCycles := s.coreCycles + 1 }, [])
  | .pimCycle => some ({ s with pim := s.pim.cycle s.coreCycles }, [])
  | .requestGtsuSwitch cid newMode npuCycle =>
      some ({ s with pim := (s.pim.requestGtsuSwitch cid newMode npuCycle).2 }, [])
  | .switchAllPimTo newMode npuCycle =>
      some ({ s with pim := (s.pim.switchAllPimTo newMode npuCycle).2 }, [])
  | .scheduleHold cid untilNpuCycle =>
      some ({ s with pim := s.pim.scheduleHold cid untilNpuCycle }, [])
  | .ssrc coordinator => some ({ s with ssrc := coordinator }, [])
  | .deliver node index => s.deliver index node
  | .answer memId index => (s.answer memId index).map (·, [])
  | .icntCycle bp => some (runOps bp s.ops s)

/-- The memory side as a machine; what a step shows is its transfers. -/
def machine : Machine Simulator MemoryAct Transfer where
  step s a := (s.exec a).map Prod.fst
  obs s a _ := ((s.exec a).map Prod.snd).getD []

end Simulator

/-! ## 6. Runs -/

/-- What a simulation is set up with. -/
structure MemorySetup where
  config : SimulationConfig
  nCores : Nat
  channelId : Nat → Nat

/-- The constructor of the simulator. -/
def MemorySetup.start (c : MemorySetup) : Simulator where
  config := c.config
  nCores := c.nCores
  channelId := c.channelId
  pim := PIMBackend.new c.config
  ssrc := SSRCCoordinator.new c.config.toSSRCConfig

/-- The run of a list of acts: the state reached and the transfers made. -/
def MemorySetup.run (c : MemorySetup) (as : List MemoryAct) : Option (Simulator × List Transfer) :=
  Simulator.machine.run as c.start

/-! ## 7. A set-up for closed runs -/

/-- Three cores and one channel, a PIM rank whose switch takes two cycles; no bypass. -/
def memorySample : MemorySetup where
  config :=
    { coreFreq := 1000
      dramFreq := 800
      dramChannels := 1
      dramSize := 0
      precision := 2
      pimEnable := true
      pimEnableAauFusion := false
      pimGtsuSwitchNs := 2 }
  nCores := 3
  channelId := fun _ => 0

/-- A write of 32 bytes. -/
def sampleAccess : MemoryAccess :=
  { id := 0, dramAddress := 0, size := 32, write := true, request := true, coreId := 0 }

/-- Each core sends a request to the channel. -/
def sending : List MemoryAct :=
  [.store 0 sampleAccess, .store 1 sampleAccess, .store 2 sampleAccess, .icntCycle {}]

/-- The next request arrives and a cycle runs. -/
def arriving : List MemoryAct := [.deliver (.memory 0) 0, .icntCycle {}]

/-- The channel is switched while a request arrives: it is parked until cycle 2. -/
def parking : List MemoryAct := [.requestGtsuSwitch 0 1 0] ++ sending ++ arriving

end Ahasd
