/-
  File:      Ahasd/Backends/MemorySystem.lean
  Subject:   THE MEMORY SIDE WITH ITS BACKENDS: the interconnect loop of `Simulator::cycle` over
             `SimpleInterconnect` and `SimpleDram`.

  `Simulator` (Simulator/MemorySide.lean) leaves open in which order packets arrive and requests are
  answered. Here the same loop runs over the two backends of the configurations `icnt_type: simple`
  and `dram_type: simple`, which decide it.

  * `view`: the backends, seen as the lists of the open model;
  * `op`, `cycle`: the loop, with the calls of the backends where the source makes them;
  * `MemorySystemSetup`: a configuration the backends accept.
-/
import Ahasd.Backends.Interconnect
import Ahasd.Backends.Dram
import Ahasd.Backends.Hashing
import Ahasd.Simulator.MemorySide

namespace Ahasd

open Transition
open Simulator (Landing incomingPlace pushMemoryResponse)

/-! ## 1. The state -/

/-- The memory side with its backends. The lists of `sim` that stand for the backends stay empty. -/
structure MemorySystem where
  sim : Simulator
  icnt : SimpleInterconnect
  dram : SimpleDram

namespace SimpleInterconnect

/-- The packets on their way to a node. -/
def inFlight (s : SimpleInterconnect) (node : Nat) : List MemoryAccess :=
  (List.range s.nNodes).flatMap fun src =>
    ((s.inBuffers src).filter fun e => e.dest == node).map Entity.access

end SimpleInterconnect

namespace MemorySystem

/-- The interconnect's number of a memory node. -/
def memNode (t : MemorySystem) (memId : Nat) : Nat := t.sim.nCores + memId

/-- The interconnect's number of a node. -/
def nodeId (t : MemorySystem) : Node → Nat
  | .core coreId => coreId
  | .memory memId => t.memNode memId

/-- The node of a number. -/
def nodeAt (t : MemorySystem) (node : Nat) : Node :=
  if node < t.sim.nCores then .core node else .memory (node - t.sim.nCores)

/-- The backends, seen as the lists of the open model. -/
def view (t : MemorySystem) : Simulator :=
  { t.sim with
    toMemory := fun memId => t.icnt.inFlight (t.memNode memId)
    toCore := fun coreId => if coreId < t.sim.nCores then t.icnt.inFlight coreId else []
    coreOutput := fun coreId => if coreId < t.sim.nCores then t.icnt.outBuffers coreId else []
    channels := fun memId =>
      { t.sim.channels memId with
        icntOutput := t.icnt.outBuffers (t.memNode memId)
        dramQueue := (t.dram.waitingQueue memId).map Prod.snd
        dramResponses := t.dram.responseQueue memId } }

/-! ## 2. The parts of a cycle -/

/-- A core's request into the interconnect. -/
def coreRequest (coreId : Nat) (t : MemorySystem) : MemorySystem × List Transfer :=
  match (t.sim.cores coreId).requestQueue with
  | [] => (t, [])
  | access :: rest =>
      let front := { access with coreId := coreId }
      if t.icnt.isFull coreId front then
        ({ t with
            sim := t.sim.updateCore coreId fun c => { c with requestQueue := front :: rest } }, [])
      else
        let dest := t.sim.getDestNode front
        let sim := t.sim.updateCore coreId fun c => { c with requestQueue := rest }
        ({ t with
            icnt := t.icnt.push coreId (t.nodeId dest) front
            sim := { sim with totNrFromCore := sim.totNrFromCore + 1 } },
          [{ access := front.identity
             src := some (.requestQueue coreId)
             dst := some dest.path
             npuCycle := t.sim.coreCycles }])

/-- A response of the interconnect into its core. -/
def coreResponse (coreId : Nat) (t : MemorySystem) : MemorySystem × List Transfer :=
  match t.icnt.top coreId with
  | none => (t, [])
  | some response =>
      let sim := t.sim.updateCore coreId (pushMemoryResponse response)
      ({ t with
          icnt := t.icnt.pop coreId
          sim := { sim with totNrToCore := sim.totNrToCore + 1 } },
        [{ access := response.identity
           src := some (.coreOutput coreId)
           dst := none
           npuCycle := t.sim.coreCycles }])

/-- `note_pim_command_candidate`. -/
def noteCandidate (memId : Nat) (t : MemorySystem) : MemorySystem :=
  { t with
    sim := { t.sim with pimCmdStats := (t.view.notePimCommandCandidate memId).pimCmdStats } }

/-- The hold queue's turn. -/
def drainHold (memId : Nat) (t : MemorySystem) : MemorySystem × List Transfer :=
  match (t.sim.channels memId).pimHoldQueue with
  | [] => (t, [])
  | (deadline, front) :: rest =>
      if t.sim.pim.active = true ∧ deadline ≤ t.sim.coreCycles ∧
          t.dram.isFull memId front = false then
        let sim := (t.sim.updateChannel memId fun ch =>
          { ch with pimHoldQueue := rest }).notePimCommandIssued memId
        ({ t with
            dram := t.dram.push memId front
            sim := { sim with totNrToMem := sim.totNrToMem + 1 } },
          [{ access := front.identity
             src := some (.hold memId)
             dst := some (.dram memId)
             npuCycle := t.sim.coreCycles
             holdUntil := t.sim.pim.holdUntil memId }])
      else (t, [])

/-- The loop that fills the command queue. -/
def refillLoop (memId : Nat) : Nat → MemorySystem → MemorySystem × List Transfer
  | 0, t => (t, [])
  | n + 1, t =>
      match t.icnt.top (t.memNode memId) with
      | none => (t, [])
      | some front =>
          if (t.sim.channels memId).pimCmdOooQueue.length <
              t.sim.config.pimCmdIssueQueueEntries then
            let r := refillLoop memId n
              { t with
                icnt := t.icnt.pop (t.memNode memId)
                sim := t.sim.updateChannel memId fun ch =>
                  { ch with pimCmdOooQueue := ch.pimCmdOooQueue ++ [front] } }
            (r.1,
              { access := front.identity
                src := some (.icntOutput memId)
                dst := some (.command memId)
                npuCycle := t.sim.coreCycles } :: r.2)
          else (t, [])

/-- The command queue takes what the interconnect has. -/
def refill (memId : Nat) (t : MemorySystem) : MemorySystem × List Transfer :=
  if t.sim.isPimChannel memId then
    refillLoop memId (t.icnt.outBuffers (t.memNode memId)).length t
  else (t, [])

/-- An issued request goes to its place. -/
def land (memId : Nat) (front : MemoryAccess) (t : MemorySystem) : Landing → MemorySystem
  | .dram => { t with dram := t.dram.push memId front }
  | landing =>
      { t with sim := t.sim.updateChannel memId fun ch => t.sim.land front ch landing }

/-- It leaves the command queue, or the interconnect. -/
def takeIncoming (memId : Nat) (index : Option Nat) (t : MemorySystem) : MemorySystem :=
  match index with
  | some i =>
      { t with
        sim := t.sim.updateChannel memId fun ch =>
          { ch with pimCmdOooQueue := ch.pimCmdOooQueue.eraseIdx i } }
  | none => { t with icnt := t.icnt.pop (t.memNode memId) }

/-- A request is issued. -/
def accept (memId : Nat) (front : MemoryAccess) (index : Option Nat) (t : MemorySystem) :
    MemorySystem × List Transfer :=
  let (landing, pim, ssrc) := t.view.route memId front
  let t' := (t.land memId front landing).takeIncoming memId index
  let sim := { t'.sim with pim := pim, ssrc := ssrc }
  let sim := if landing.issues then sim.notePimCommandIssued memId else sim
  ({ t' with sim := { sim with totNrToMem := sim.totNrToMem + 1 } },
    [{ access := front.identity
       src := some (incomingPlace memId index)
       dst := some (landing.place memId)
       npuCycle := t.sim.coreCycles
       holdUntil := t.sim.pim.holdUntil memId }])

/-- The issue of a node. -/
def issue (memId : Nat) (t : MemorySystem) : MemorySystem × List Transfer :=
  let full := t.dram.isFull memId
  let selected := t.view.incoming full memId
  let stats := (t.view.noteTlmReadIssueWindow memId (selected.map Prod.fst)).pimCmdStats
  let t := { t with sim := { t.sim with pimCmdStats := stats } }
  match selected with
  | none => (t, [])
  | some (front, index) => if full front then (t, []) else t.accept memId front index

/-- A response goes into the interconnect. -/
def sendBack (memId : Nat) (src : Place) (response : MemoryAccess) (t : MemorySystem) :
    MemorySystem × List Transfer :=
  let dest := t.sim.getDestNode response
  ({ t with
      icnt := t.icnt.push (t.memNode memId) (t.nodeId dest) response
      sim := { t.sim with totNrFromMem := t.sim.totNrFromMem + 1 } },
    [{ access := response.identity
       src := some src
       dst := some dest.path
       npuCycle := t.sim.coreCycles }])

/-- The AAU bypass queue's turn. -/
def drainBypass (memId : Nat) (t : MemorySystem) : MemorySystem × List Transfer :=
  match (t.sim.channels memId).pimBypassQueue with
  | [] => (t, [])
  | (ready, front) :: rest =>
      if t.sim.pim.active = true ∧ ready ≤ t.sim.coreCycles ∧
          t.icnt.isFull (t.memNode memId) front = false then
        { t with
          sim := t.sim.updateChannel memId fun ch => { ch with pimBypassQueue := rest }
        }.sendBack memId (.aauBypass memId) front
      else (t, [])

/-- The SSRC bypass queue's turn. -/
def drainSsrcBypass (memId : Nat) (t : MemorySystem) : MemorySystem × List Transfer :=
  match (t.sim.channels memId).pimSsrcBypassQueue with
  | [] => (t, [])
  | (ready, front) :: rest =>
      if t.sim.pim.active = true ∧ ready ≤ t.sim.coreCycles ∧
          t.icnt.isFull (t.memNode memId) front = false then
        { t with
          sim := t.sim.updateChannel memId fun ch => { ch with pimSsrcBypassQueue := rest }
        }.sendBack memId (.ssrcBypass memId) front
      else (t, [])

/-- The DRAM response's turn. -/
def dramResponse (memId : Nat) (t : MemorySystem) : MemorySystem × List Transfer :=
  match t.dram.top memId with
  | none => (t, [])
  | some response =>
      if t.icnt.isFull (t.memNode memId) response then (t, [])
      else { t with dram := t.dram.pop memId }.sendBack memId (.dram memId) response

/-- One part. -/
def op (t : MemorySystem) : Op → MemorySystem × List Transfer
  | .coreRequest coreId => t.coreRequest coreId
  | .coreResponse coreId => t.coreResponse coreId
  | .noteCandidate memId => (t.noteCandidate memId, [])
  | .drainHold memId => t.drainHold memId
  | .refill memId => t.refill memId
  | .issue memId => t.issue memId
  | .drainBypass memId => t.drainBypass memId
  | .drainSsrcBypass memId => t.drainSsrcBypass memId
  | .dramResponse memId => t.dramResponse memId

/-- Several parts, one after the other. -/
def runOps : List Op → MemorySystem → MemorySystem × List Transfer
  | [], t => (t, [])
  | o :: os, t =>
      let r := t.op o
      let r' := runOps os r.1
      (r'.1, r.2 ++ r'.2)

/-! ## 3. The cycles of the backends -/

/-- A packet that the interconnect brings over. -/
def delivered (t : MemorySystem) : IcntEvent → List Transfer
  | .brought _ dest access =>
      [{ access := access.identity
         src := some (t.nodeAt dest).path
         dst := some (match t.nodeAt dest with
           | .core coreId => .coreOutput coreId
           | .memory memId => .icntOutput memId)
         npuCycle := t.sim.coreCycles }]
  | _ => []

/-- The interconnect's own cycle. -/
def icntStep (t : MemorySystem) : MemorySystem × List Transfer :=
  let r := t.icnt.cycle
  ({ t with icnt := r.1 }, r.2.flatMap t.delivered)

/-- One interconnect cycle: the loop over the nodes, then the interconnect's own cycle. -/
def icntCycle (t : MemorySystem) : MemorySystem × List Transfer :=
  let r := runOps t.sim.ops t
  let r' := r.1.icntStep
  (r'.1, r.2 ++ r'.2)

/-- One DRAM cycle. -/
def dramCycle (t : MemorySystem) : MemorySystem := { t with dram := t.dram.cycle.1 }

end MemorySystem

/-! ## 4. The simulator around it -/

/-- What happens to the memory side: what `MemoryAct` has on the cores, the clock and the PIM
    overlay, and the cycles of the backends. -/
inductive SystemAct where
  | side (a : MemoryAct)
  | dramCycle
  | icntCycle

/-- The acts that concern no backend. -/
def MemoryAct.aside : MemoryAct → Bool
  | .deliver .. | .answer .. | .icntCycle .. => false
  | _ => true

namespace MemorySystem

/-- One act, with the transfers it makes. -/
def exec (t : MemorySystem) : SystemAct → Option (MemorySystem × List Transfer)
  | .side a =>
      if a.aside then (t.sim.exec a).map fun r => ({ t with sim := r.1 }, r.2) else none
  | .dramCycle => some (t.dramCycle, [])
  | .icntCycle => some t.icntCycle

/-- The memory side with its backends as a machine. -/
def machine : Machine MemorySystem SystemAct Transfer where
  step t a := (t.exec a).map Prod.fst
  obs t a _ := ((t.exec a).map Prod.snd).getD []

end MemorySystem

/-- A set-up of the backends: the latencies, what the memory held where the constructors set
    nothing, a number of channels and of nodes that they accept, and a first turn of the
    interconnect that does not wrap. -/
structure MemorySystemSetup where
  config : SimulationConfig
  nCores : Nat
  dramReqSize : Nat
  icntLatency : Nat
  dramLatency : Nat
  rrStart : Nat
  lastFinishCycle : Nat
  channels : acceptedChannels config.dramChannels
  nodes : nCores + config.dramChannels ≤ 2 ^ 31
  noWrap : rrStart + (nCores + config.dramChannels) ≤ 2 ^ 32

namespace MemorySystemSetup

/-- `get_channel_id`, of an address. -/
def channelId (c : MemorySystemSetup) (address : Nat) : Nat :=
  (getChannelId c.config.dramChannels c.dramReqSize
    { id := 0, dramAddress := address, size := 0, write := false, request := true, coreId := 0 }).getD 0

/-- The simulator of the set-up, its backends left open. -/
def memorySetup (c : MemorySystemSetup) : MemorySetup where
  config := c.config
  nCores := c.nCores
  channelId := c.channelId

/-- The constructors. -/
def start (c : MemorySystemSetup) : MemorySystem where
  sim := c.memorySetup.start
  icnt := SimpleInterconnect.new (c.nCores + c.config.dramChannels) c.icntLatency c.rrStart
  dram := SimpleDram.new c.config.dramChannels c.dramLatency c.lastFinishCycle

/-- The run of a list of acts: the state reached and the transfers made. -/
def run (c : MemorySystemSetup) (as : List SystemAct) : Option (MemorySystem × List Transfer) :=
  MemorySystem.machine.run as c.start

end MemorySystemSetup

end Ahasd
