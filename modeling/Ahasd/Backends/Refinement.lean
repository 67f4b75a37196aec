/-
  File:      Ahasd/Backends/Refinement.lean
  Subject:   THE BACKENDS KEEP TO THE OPEN MODEL: every run of the memory side with its backends is a
             run of the open one (Simulator/MemorySide.lean), with the same transfers.

  * `Bags`: the open model's packets on their way are the backends', in any order;
  * `Matches`: what a part does with the backends, the same part does in the open model;
  * `op_matches`, `icntStep_matches`, `dramCycle_matches`: the loop, and the cycles of the backends
    as deliveries and answers;
  * **`refines`**: a run is a run of the open model; `conserves`: so every request is in one place.
-/
import Ahasd.Backends.MemorySystem
import Ahasd.Simulator.Conservation

namespace Ahasd

open Transition

/-! ## 1. The packets on their way -/

/-- What is put at one place of a list of lists, is put into their union. -/
theorem flatMap_cons_perm {ι α : Type} {l : List ι} (hnd : l.Nodup) {i : ι} (hi : i ∈ l)
    {f g : ι → List α} {x : α} (hput : (g i).Perm (x :: f i)) (hother : ∀ j ∈ l, j ≠ i → g j = f j) :
    (l.flatMap g).Perm (x :: l.flatMap f) := by
  obtain ⟨before, after, rfl⟩ := List.append_of_mem hi
  have hni : i ∉ before ++ after := (List.nodup_cons.mp (List.perm_middle.nodup_iff.mp hnd)).1
  have hb : before.flatMap g = before.flatMap f :=
    List.flatMap_congr fun j hj => hother j (List.mem_append_left _ hj)
      fun heq => hni (heq ▸ List.mem_append_left after hj)
  have ha : after.flatMap g = after.flatMap f :=
    List.flatMap_congr fun j hj => hother j (List.mem_append_right _ (List.mem_cons_of_mem i hj))
      fun heq => hni (heq ▸ List.mem_append_right before hj)
  simp only [List.flatMap_append, List.flatMap_cons, hb, ha]
  exact ((hput.append_right _).append_left _).trans List.perm_middle

namespace SimpleInterconnect

variable {s : SimpleInterconnect}

theorem inFlight_push {src : Nat} (hsrc : src < s.nNodes) (dest : Nat) (access : MemoryAccess)
    (node : Nat) : ((s.push src dest access).inFlight node).Perm
      (if dest = node then access :: s.inFlight node else s.inFlight node) := by
  split
  · next hd =>
      subst hd
      refine flatMap_cons_perm List.nodup_range (List.mem_range.mpr hsrc) ?_ fun j _ hj => ?_
      · simp [push]
      · simp [push, hj]
  · next hd =>
      refine .of_eq (List.flatMap_congr fun j _ => ?_)
      by_cases hj : j = src
      · subst hj
        simp [push, hd]
      · simp [push, hj]

/-- What a cycle brings over, it takes from what is on its way. -/
theorem inFlight_brought (s' : SimpleInterconnect) {src dest : Nat} {access : MemoryAccess}
    {rest : List Entity} {finish : Nat} (hsrc : src < s.nNodes) (hn : s'.nNodes = s.nNodes)
    (hfront : s.inBuffers src = { finishCycle := finish, dest := dest, access := access } :: rest)
    (hrest : s'.inBuffers src = rest)
    (hother : ∀ k, k ≠ src → s'.inBuffers k = s.inBuffers k) (node : Nat) :
    (s.inFlight node).Perm
      (if dest = node then access :: s'.inFlight node else s'.inFlight node) := by
  unfold inFlight
  rw [hn]
  split
  · next hd =>
      subst hd
      refine flatMap_cons_perm List.nodup_range (List.mem_range.mpr hsrc) ?_ fun j _ hj => ?_
      · simp [hfront, hrest]
      · rw [hother j hj]
  · next hd =>
      refine .of_eq (List.flatMap_congr fun j _ => ?_)
      by_cases hj : j = src
      · subst hj
        simp [hfront, hrest, hd]
      · rw [hother j hj]

end SimpleInterconnect

/-! ## 2. The two states -/

namespace MemorySystem

/-- The open model's state, with its packets on their way in some order. -/
def viewWith (t : MemorySystem) (toMemory toCore : Nat → List MemoryAccess) : Simulator :=
  { t.view with toMemory := toMemory, toCore := toCore }

/-- The packets on their way are the backends'. -/
structure Bags (t : MemorySystem) (toMemory toCore : Nat → List MemoryAccess) : Prop where
  memory : ∀ m, (toMemory m).Perm (t.icnt.inFlight (t.memNode m))
  core : ∀ c, (toCore c).Perm (if c < t.sim.nCores then t.icnt.inFlight c else [])

/-- The backends have the nodes and the channels of the simulator. -/
structure Wired (t : MemorySystem) : Prop where
  nNodes : t.icnt.nNodes = t.sim.nCores + t.sim.nMemories
  nCh : t.dram.nCh = t.sim.nMemories
  channelId : ∀ address, t.sim.channelId address < t.sim.nMemories

/-- When a state of the open model is a view. -/
theorem eq_viewWith {t : MemorySystem} {a : Simulator} {toMemory toCore : Nat → List MemoryAccess}
    (hsim : { a with
      toMemory := t.sim.toMemory
      toCore := t.sim.toCore
      coreOutput := t.sim.coreOutput
      channels := t.sim.channels } = t.sim)
    (hm : a.toMemory = toMemory) (hc : a.toCore = toCore)
    (hout : ∀ c, a.coreOutput c = if c < t.sim.nCores then t.icnt.outBuffers c else [])
    (hch : ∀ m, a.channels m =
      { t.sim.channels m with
        icntOutput := t.icnt.outBuffers (t.memNode m)
        dramQueue := (t.dram.waitingQueue m).map Prod.snd
        dramResponses := t.dram.responseQueue m }) : a = t.viewWith toMemory toCore := by
  subst hm hc
  calc a = { { a with
              toMemory := t.sim.toMemory
              toCore := t.sim.toCore
              coreOutput := t.sim.coreOutput
              channels := t.sim.channels } with
            toMemory := a.toMemory
            toCore := a.toCore
            coreOutput := a.coreOutput
            channels := a.channels } := rfl
    _ = { t.sim with
            toMemory := a.toMemory
            toCore := a.toCore
            coreOutput := a.coreOutput
            channels := a.channels } := by rw [hsim]
    _ = t.viewWith a.toMemory a.toCore := by
        rw [funext hout, funext hch]
        rfl

/-! ## 3. The parts of the loop -/

/-- A part that concerns a node there is. -/
def Inside (s : Simulator) : Op → Prop
  | .coreRequest coreId | .coreResponse coreId => coreId < s.nCores
  | .noteCandidate memId | .drainHold memId | .refill memId | .issue memId | .drainBypass memId
  | .drainSsrcBypass memId | .dramResponse memId => memId < s.nMemories

/-- What no step changes. -/
structure Alike (t t' : MemorySystem) : Prop where
  nCores : t'.sim.nCores = t.sim.nCores
  config : t'.sim.config = t.sim.config
  channelId : t'.sim.channelId = t.sim.channelId
  nNodes : t'.icnt.nNodes = t.icnt.nNodes
  nCh : t'.dram.nCh = t.dram.nCh

theorem Alike.refl (t : MemorySystem) : Alike t t := ⟨rfl, rfl, rfl, rfl, rfl⟩

theorem Alike.trans {t t' t'' : MemorySystem} (h : Alike t t') (h' : Alike t' t'') :
    Alike t t'' :=
  ⟨h'.nCores.trans h.nCores, h'.config.trans h.config, h'.channelId.trans h.channelId,
    h'.nNodes.trans h.nNodes, h'.nCh.trans h.nCh⟩

theorem Alike.nMemories {t t' : MemorySystem} (h : Alike t t') :
    t'.sim.nMemories = t.sim.nMemories := by
  unfold Simulator.nMemories
  rw [h.config]

theorem Alike.wired {t t' : MemorySystem} (h : Alike t t') (hw : t.Wired) : t'.Wired := by
  refine ⟨?_, ?_, fun address => ?_⟩
  · rw [h.nNodes, h.nCores, h.nMemories, hw.nNodes]
  · rw [h.nCh, h.nMemories, hw.nCh]
  · rw [h.channelId, h.nMemories]
    exact hw.channelId address

/-- What is done with the backends is done in the open model, with the same transfers. -/
def Matches (t : MemorySystem) (r : MemorySystem × List Transfer)
    (f : Simulator → Simulator × List Transfer) : Prop :=
  Alike t r.1 ∧
    ∀ toMemory toCore, t.Bags toMemory toCore → Simulator.Shape (t.viewWith toMemory toCore) →
      ∃ toMemory' toCore', f (t.viewWith toMemory toCore) = (r.1.viewWith toMemory' toCore', r.2) ∧
        r.1.Bags toMemory' toCore'

variable {t : MemorySystem}

theorem matches_still {f : Simulator → Simulator × List Transfer}
    (hf : ∀ toMemory toCore, f (t.viewWith toMemory toCore) = (t.viewWith toMemory toCore, [])) :
    Matches t (t, []) f :=
  ⟨.refl t, fun toMemory toCore hb _ => ⟨toMemory, toCore, hf toMemory toCore, hb⟩⟩

/-- A node there is. -/
def There (s : Simulator) : Node → Prop
  | .core coreId => coreId < s.nCores
  | .memory memId => memId < s.nMemories

theorem Bags.congr {t t' : MemorySystem} {toMemory toCore : Nat → List MemoryAccess}
    (hb : t.Bags toMemory toCore) (hi : t'.icnt.inFlight = t.icnt.inFlight)
    (hn : t'.sim.nCores = t.sim.nCores) : t'.Bags toMemory toCore := by
  refine ⟨fun m => ?_, fun c => ?_⟩
  · rw [hi, memNode, hn]
    exact hb.memory m
  · rw [hi, hn]
    exact hb.core c

/-- A packet is pushed into both interconnects. -/
theorem Bags.push {toMemory toCore : Nat → List MemoryAccess} (hb : t.Bags toMemory toCore)
    {src : Nat} (hsrc : src < t.icnt.nNodes) {node : Node} (hnode : There t.sim node)
    (access : MemoryAccess) :
    ({ t with icnt := t.icnt.push src (t.nodeId node) access } : MemorySystem).Bags
      ((t.viewWith toMemory toCore).icntPush access node).toMemory
      ((t.viewWith toMemory toCore).icntPush access node).toCore := by
  have hpush := SimpleInterconnect.inFlight_push hsrc (t.nodeId node) access
  have hsnoc : ∀ l : List MemoryAccess, (l ++ [access]).Perm (access :: l) :=
    fun l => List.perm_append_singleton access l
  cases node with
  | core c₀ =>
      refine ⟨fun m => ?_, fun c => ?_⟩
      · have hne : c₀ ≠ t.memNode m := by
          have hlt : c₀ < t.sim.nCores := hnode
          unfold memNode
          omega
        have hp := hpush (t.memNode m)
        rw [nodeId, if_neg hne] at hp
        exact (hb.memory m).trans hp.symm
      · have hp := hpush c
        by_cases hc : c = c₀
        · subst hc
          have hlt : c < t.sim.nCores := hnode
          have hbc := hb.core c
          rw [if_pos hlt] at hbc
          rw [nodeId, if_pos rfl] at hp
          simp only [Simulator.icntPush, Function.update_self, hlt, if_true]
          exact (hsnoc _).trans ((hbc.cons access).trans hp.symm)
        · have hne : c₀ ≠ c := fun h => hc h.symm
          rw [nodeId, if_neg hne] at hp
          simp only [Simulator.icntPush, Function.update_of_ne hc]
          refine (hb.core c).trans ?_
          split
          · exact hp.symm
          · exact .refl _
  | memory m₀ =>
      refine ⟨fun m => ?_, fun c => ?_⟩
      · have hp := hpush (t.memNode m)
        by_cases hm : m = m₀
        · subst hm
          rw [nodeId, if_pos rfl] at hp
          simp only [Simulator.icntPush, Function.update_self]
          exact (hsnoc _).trans (((hb.memory m).cons access).trans hp.symm)
        · have hne : t.memNode m₀ ≠ t.memNode m := by
            unfold memNode
            omega
          rw [nodeId, if_neg hne] at hp
          simp only [Simulator.icntPush, Function.update_of_ne hm]
          exact (hb.memory m).trans hp.symm
      · refine (hb.core c).trans ?_
        dsimp only
        split
        · next hlt =>
            have hp := hpush c
            have hne : t.memNode m₀ ≠ c := by
              unfold memNode
              omega
            rw [nodeId, if_neg hne] at hp
            exact hp.symm
        · exact .refl _

theorem viewWith_push (t : MemorySystem) (toMemory toCore : Nat → List MemoryAccess) (src : Nat)
    (access : MemoryAccess) (node : Node) :
    (t.viewWith toMemory toCore).icntPush access node =
      ({ t with icnt := t.icnt.push src (t.nodeId node) access } : MemorySystem).viewWith
        ((t.viewWith toMemory toCore).icntPush access node).toMemory
        ((t.viewWith toMemory toCore).icntPush access node).toCore := by
  cases node <;> rfl

theorem coreRequest_matches (hw : t.Wired) {coreId : Nat} (hc : coreId < t.sim.nCores) :
    Matches t (t.coreRequest coreId) (fun a => a.coreRequest (t.icnt.isFull coreId) coreId) := by
  unfold coreRequest
  cases hq : (t.sim.cores coreId).requestQueue with
  | nil =>
      refine matches_still fun toMemory toCore => ?_
      have hq' : ((t.viewWith toMemory toCore).cores coreId).requestQueue = [] := hq
      simp only [Simulator.coreRequest, hq']
  | cons access rest =>
      refine ⟨⟨rfl, rfl, rfl, rfl, rfl⟩, fun toMemory toCore hb hshape => ?_⟩
      have hq' : ((t.viewWith toMemory toCore).cores coreId).requestQueue = access :: rest := hq
      have hfits := hshape (.requestQueue coreId) access (by
        show access ∈ ((t.viewWith toMemory toCore).cores coreId).requestQueue
        rw [hq']
        exact List.mem_cons_self)
      set front : MemoryAccess := { access with coreId := coreId } with hfront
      have hdest : t.sim.getDestNode front = .memory (t.sim.channelId front.dramAddress) := by
        rw [Simulator.getDestNode, if_pos hfits.2.2]
      have hsrc : coreId < t.icnt.nNodes := by
        rw [hw.nNodes]
        omega
      have hthere : There t.sim (t.sim.getDestNode front) := by
        rw [hdest]
        exact hw.channelId _
      have hpush := hb.push hsrc hthere front
      refine ⟨_, _, ?_, hpush.congr rfl rfl⟩
      simp only [Simulator.coreRequest, hq', SimpleInterconnect.isFull, Bool.false_eq_true, if_false]
      rw [← hfront]
      have hview := viewWith_push t toMemory toCore coreId front (t.sim.getDestNode front)
      exact congrArg (fun a : Simulator =>
        ({ a.updateCore coreId fun c => { c with requestQueue := rest } with
            totNrFromCore := a.totNrFromCore + 1 },
          [({ access := front.identity
              src := some (.requestQueue coreId)
              dst := some (t.sim.getDestNode front).path
              npuCycle := t.sim.coreCycles } : Transfer)])) hview

theorem coreResponse_matches {coreId : Nat} (hc : coreId < t.sim.nCores) :
    Matches t (t.coreResponse coreId) (fun a => a.coreResponse coreId) := by
  have hout : ∀ toMemory toCore,
      (t.viewWith toMemory toCore).coreOutput coreId = t.icnt.outBuffers coreId := by
    intro toMemory toCore
    exact if_pos hc
  unfold coreResponse SimpleInterconnect.top
  cases hq : t.icnt.outBuffers coreId with
  | nil =>
      refine matches_still fun toMemory toCore => ?_
      simp only [Simulator.coreResponse, hout, hq]
  | cons response rest =>
      refine ⟨⟨rfl, rfl, rfl, rfl, rfl⟩, fun toMemory toCore hb _ =>
        ⟨toMemory, toCore, ?_, hb.congr rfl rfl⟩⟩
      simp only [Simulator.coreResponse, hout, hq]
      refine Prod.ext (eq_viewWith rfl rfl rfl ?_ fun m => ?_) rfl
      · intro c
        by_cases hcc : c = coreId
        · subst hcc
          simp [SimpleInterconnect.pop, Simulator.updateCore, hc, hq]
        · simp [SimpleInterconnect.pop, Simulator.updateCore, Function.update_of_ne hcc, viewWith,
            view]
      · have hne : t.sim.nCores + m ≠ coreId := by omega
        simp [SimpleInterconnect.pop, Simulator.updateCore, hne, viewWith, view, memNode]

theorem noteCandidate_matches (memId : Nat) :
    Matches t (t.noteCandidate memId, []) (fun a => (a.notePimCommandCandidate memId, [])) := by
  refine ⟨⟨rfl, rfl, rfl, rfl, rfl⟩, fun toMemory toCore hb _ =>
    ⟨toMemory, toCore, ?_, hb.congr rfl rfl⟩⟩
  refine Prod.ext ?_ rfl
  simp only [noteCandidate, Simulator.notePimCommandCandidate]
  by_cases h : (t.view.isPimChannel memId && (!(t.view.channels memId).pimHoldQueue.isEmpty ||
      !(t.view.channels memId).pimCmdOooQueue.isEmpty ||
      !(t.view.channels memId).icntOutput.isEmpty)) = true
  · rw [if_pos h]
    exact (if_pos h).trans rfl
  · rw [if_neg h]
    exact (if_neg h).trans rfl

/-- Something of a channel is changed that the backends do not hold. -/
theorem viewWith_updateChannel (t : MemorySystem) (toMemory toCore : Nat → List MemoryAccess)
    (memId : Nat) {f : Channel → Channel}
    (hf : ∀ ch icnt queue responses, f { ch with
        icntOutput := icnt, dramQueue := queue, dramResponses := responses } =
      { f ch with icntOutput := icnt, dramQueue := queue, dramResponses := responses }) :
    (t.viewWith toMemory toCore).updateChannel memId f =
      ({ t with sim := t.sim.updateChannel memId f } : MemorySystem).viewWith toMemory toCore := by
  refine eq_viewWith rfl rfl rfl (fun _ => rfl) fun m => ?_
  by_cases hm : m = memId
  · subst hm
    simp only [Simulator.updateChannel, Function.update_self]
    exact hf _ _ _ _
  · simp [Simulator.updateChannel, Function.update_of_ne hm, viewWith, view]
    rfl

/-- A request is pushed into both DRAMs. -/
theorem viewWith_dramPush (t : MemorySystem) (toMemory toCore : Nat → List MemoryAccess)
    (memId : Nat) (access : MemoryAccess) :
    (t.viewWith toMemory toCore).updateChannel memId (Simulator.dramPush access) =
      ({ t with dram := t.dram.push memId access } : MemorySystem).viewWith toMemory toCore := by
  refine eq_viewWith rfl rfl rfl (fun _ => rfl) fun m => ?_
  by_cases hm : m = memId
  · subst hm
    simp [Simulator.updateChannel, Simulator.dramPush, SimpleDram.push, viewWith, view]
    rfl
  · simp [Simulator.updateChannel, Function.update_of_ne hm, viewWith, view, SimpleDram.push]
    rfl

/-- Two changes of a channel, one after the other. -/
theorem updateChannel_comp (a : Simulator) (memId : Nat) (f g : Channel → Channel) :
    (a.updateChannel memId f).updateChannel memId g = a.updateChannel memId fun ch => g (f ch) := by
  simp [Simulator.updateChannel]

theorem viewWith_noteIssued (t : MemorySystem) (toMemory toCore : Nat → List MemoryAccess)
    (memId : Nat) :
    (t.viewWith toMemory toCore).notePimCommandIssued memId =
      ({ t with sim := t.sim.notePimCommandIssued memId } : MemorySystem).viewWith
        toMemory toCore := by
  unfold Simulator.notePimCommandIssued
  by_cases h : t.sim.isPimChannel memId = true
  · rw [if_pos h]
    exact if_pos h
  · rw [if_neg h]
    exact if_neg h

theorem noteIssued_alike (t : MemorySystem) (memId : Nat) :
    Alike t { t with sim := t.sim.notePimCommandIssued memId } := by
  unfold Simulator.notePimCommandIssued
  split
  · exact ⟨rfl, rfl, rfl, rfl, rfl⟩
  · exact .refl t

theorem drainHold_matches (memId : Nat) :
    Matches t (t.drainHold memId) (fun a => a.drainHold (t.dram.isFull memId) memId) := by
  unfold drainHold
  cases hq : (t.sim.channels memId).pimHoldQueue with
  | nil =>
      refine matches_still fun toMemory toCore => ?_
      have hq' : ((t.viewWith toMemory toCore).channels memId).pimHoldQueue = [] := hq
      simp only [Simulator.drainHold, hq']
  | cons e rest =>
      obtain ⟨deadline, front⟩ := e
      have hq' : ∀ toMemory toCore, ((t.viewWith toMemory toCore).channels memId).pimHoldQueue =
          (deadline, front) :: rest := fun _ _ => hq
      dsimp only
      split
      · next hgo =>
          set t₁ : MemorySystem :=
            { t with
              dram := t.dram.push memId front
              sim := t.sim.updateChannel memId fun ch => { ch with pimHoldQueue := rest } } with ht₁
          have hsame := noteIssued_alike t₁ memId
          refine ⟨⟨hsame.nCores, hsame.config, hsame.channelId, rfl, rfl⟩,
            fun toMemory toCore hb _ => ⟨toMemory, toCore, ?_, hb.congr rfl hsame.nCores⟩⟩
          have hview : ((t.viewWith toMemory toCore).updateChannel memId fun ch =>
              Simulator.dramPush front { ch with pimHoldQueue := rest }) =
              t₁.viewWith toMemory toCore := by
            rw [← updateChannel_comp, viewWith_updateChannel, viewWith_dramPush]
            exact fun _ _ _ _ => rfl
          have hnote := viewWith_noteIssued t₁ toMemory toCore memId
          simp only [Simulator.drainHold, hq', hview, hnote]
          exact (if_pos hgo).trans rfl
      · next hgo =>
          refine matches_still fun toMemory toCore => ?_
          simp only [Simulator.drainHold, hq']
          exact if_neg hgo

/-- Only what a change makes of the channel counts. -/
theorem updateChannel_congr {a : Simulator} {memId : Nat} {f g : Channel → Channel}
    (h : f (a.channels memId) = g (a.channels memId)) :
    a.updateChannel memId f = a.updateChannel memId g := by
  simp [Simulator.updateChannel, h]

/-- A packet leaves the output of both interconnects. -/
theorem viewWith_icntPop (t : MemorySystem) (toMemory toCore : Nat → List MemoryAccess)
    (memId : Nat) :
    (t.viewWith toMemory toCore).updateChannel memId
        (fun ch => { ch with icntOutput := ch.icntOutput.tail }) =
      ({ t with icnt := t.icnt.pop (t.memNode memId) } : MemorySystem).viewWith
        toMemory toCore := by
  refine eq_viewWith rfl rfl rfl (fun c => ?_) fun m => ?_
  · by_cases hc : c < t.sim.nCores
    · have hne : c ≠ t.memNode memId := by
        unfold memNode
        omega
      simp [Simulator.updateChannel, viewWith, view, SimpleInterconnect.pop, hc, hne]
    · simp [Simulator.updateChannel, viewWith, view, hc]
  · by_cases hm : m = memId
    · subst hm
      simp [Simulator.updateChannel, viewWith, view, SimpleInterconnect.pop, memNode]
    · have hne : t.sim.nCores + m ≠ t.sim.nCores + memId := by omega
      simp only [Simulator.updateChannel, Function.update_of_ne hm, viewWith, view,
        SimpleInterconnect.pop, memNode, Function.update_of_ne hne]

theorem refillLoop_view (memId : Nat) : ∀ (n : Nat) (t : MemorySystem),
    Alike t (refillLoop memId n t).1 ∧
      (refillLoop memId n t).1.icnt.inFlight = t.icnt.inFlight ∧
      ∀ toMemory toCore, Simulator.refillLoop memId n (t.viewWith toMemory toCore) =
        ((refillLoop memId n t).1.viewWith toMemory toCore, (refillLoop memId n t).2) := by
  intro n
  induction n with
  | zero => exact fun t => ⟨.refl t, rfl, fun _ _ => rfl⟩
  | succ n ih =>
      intro t
      unfold refillLoop SimpleInterconnect.top Simulator.refillLoop
      cases hq : t.icnt.outBuffers (t.memNode memId) with
      | nil =>
          refine ⟨.refl t, rfl, fun toMemory toCore => ?_⟩
          have hq' : ((t.viewWith toMemory toCore).channels memId).icntOutput = [] := hq
          simp only [hq']
          rfl
      | cons front icnt =>
          have hq' : ∀ toMemory toCore,
              ((t.viewWith toMemory toCore).channels memId).icntOutput = front :: icnt :=
            fun _ _ => hq
          simp only [List.head?_cons]
          by_cases hroom : (t.sim.channels memId).pimCmdOooQueue.length <
              t.sim.config.pimCmdIssueQueueEntries
          · rw [if_pos hroom]
            set t₁ : MemorySystem :=
              { t with
                icnt := t.icnt.pop (t.memNode memId)
                sim := t.sim.updateChannel memId fun ch =>
                  { ch with pimCmdOooQueue := ch.pimCmdOooQueue ++ [front] } } with ht₁
            obtain ⟨halike, hflight, hloop⟩ := ih t₁
            have hstep : Alike t t₁ := ⟨rfl, rfl, rfl, rfl, rfl⟩
            refine ⟨hstep.trans halike, hflight, fun toMemory toCore => ?_⟩
            have hview : ((t.viewWith toMemory toCore).updateChannel memId fun ch =>
                { ch with icntOutput := icnt, pimCmdOooQueue := ch.pimCmdOooQueue ++ [front] }) =
                t₁.viewWith toMemory toCore := by
              calc ((t.viewWith toMemory toCore).updateChannel memId fun ch =>
                    { ch with icntOutput := icnt, pimCmdOooQueue := ch.pimCmdOooQueue ++ [front] })
                  = ((t.viewWith toMemory toCore).updateChannel memId fun ch =>
                      { ch with pimCmdOooQueue := ch.pimCmdOooQueue ++ [front] }).updateChannel memId
                        fun ch => { ch with icntOutput := ch.icntOutput.tail } := by
                    rw [updateChannel_comp]
                    refine updateChannel_congr ?_
                    dsimp only
                    rw [hq', List.tail_cons]
                _ = t₁.viewWith toMemory toCore := by
                    rw [viewWith_updateChannel _ _ _ _ fun _ _ _ _ => rfl, viewWith_icntPop]
                    rfl
            simp only [hq', hview, hloop]
            exact (if_pos hroom).trans rfl
          · rw [if_neg hroom]
            refine ⟨.refl t, rfl, fun toMemory toCore => ?_⟩
            simp only [hq']
            exact if_neg hroom

theorem refill_matches (memId : Nat) :
    Matches t (t.refill memId) (fun a => a.refill memId) := by
  unfold refill
  by_cases h : t.sim.isPimChannel memId = true
  · rw [if_pos h]
    obtain ⟨halike, hflight, hloop⟩ :=
      refillLoop_view memId (t.icnt.outBuffers (t.memNode memId)).length t
    refine ⟨halike, fun toMemory toCore hb _ => ⟨toMemory, toCore, ?_, hb.congr hflight halike.nCores⟩⟩
    exact (if_pos h).trans (hloop toMemory toCore)
  · rw [if_neg h]
    exact matches_still fun toMemory toCore => if_neg h

/-- A response is sent back through both interconnects. -/
theorem sendBack_view (hw : t.Wired) {memId : Nat} (hm : memId < t.sim.nMemories) {src : Place}
    {response : MemoryAccess} (hflag : response.request = false)
    (hcore : response.coreId < t.sim.nCores) {toMemory toCore : Nat → List MemoryAccess}
    (hb : t.Bags toMemory toCore) :
    ∃ toMemory' toCore', (t.viewWith toMemory toCore).sendBack src response =
        ((t.sendBack memId src response).1.viewWith toMemory' toCore',
          (t.sendBack memId src response).2) ∧
      (t.sendBack memId src response).1.Bags toMemory' toCore' := by
  have hdest : t.sim.getDestNode response = .core response.coreId := by
    rw [Simulator.getDestNode, if_neg (by simp [hflag])]
  have hsrc : t.memNode memId < t.icnt.nNodes := by
    rw [hw.nNodes, memNode]
    omega
  have hthere : There t.sim (t.sim.getDestNode response) := by
    rw [hdest]
    exact hcore
  have hpush := hb.push hsrc hthere response
  refine ⟨_, _, ?_, hpush.congr rfl rfl⟩
  have hview := viewWith_push t toMemory toCore (t.memNode memId) response
    (t.sim.getDestNode response)
  exact congrArg (fun a : Simulator =>
    ({ a with totNrFromMem := a.totNrFromMem + 1 },
      [({ access := response.identity
          src := some src
          dst := some (t.sim.getDestNode response).path
          npuCycle := t.sim.coreCycles } : Transfer)])) hview

theorem drainBypass_matches (hw : t.Wired) {memId : Nat} (hm : memId < t.sim.nMemories) :
    Matches t (t.drainBypass memId)
      (fun a => a.drainBypass (t.icnt.isFull (t.memNode memId)) memId) := by
  unfold drainBypass
  cases hq : (t.sim.channels memId).pimBypassQueue with
  | nil =>
      refine matches_still fun toMemory toCore => ?_
      have hq' : ((t.viewWith toMemory toCore).channels memId).pimBypassQueue = [] := hq
      simp only [Simulator.drainBypass, hq']
  | cons e rest =>
      obtain ⟨ready, front⟩ := e
      have hq' : ∀ toMemory toCore, ((t.viewWith toMemory toCore).channels memId).pimBypassQueue =
          (ready, front) :: rest := fun _ _ => hq
      dsimp only
      split
      · next hgo =>
          refine ⟨⟨rfl, rfl, rfl, rfl, rfl⟩, fun toMemory toCore hb hshape => ?_⟩
          have hfits := hshape (.aauBypass memId) front (by
            simp [Simulator.contents, Channel.contents, hq'])
          have hview := viewWith_updateChannel t toMemory toCore memId
            (f := fun ch => { ch with pimBypassQueue := rest }) fun _ _ _ _ => rfl
          set t₁ : MemorySystem :=
            { t with sim := t.sim.updateChannel memId fun ch => { ch with pimBypassQueue := rest } }
            with ht₁
          have hw₁ : t₁.Wired := ⟨hw.nNodes, hw.nCh, hw.channelId⟩
          have hb₁ : t₁.Bags toMemory toCore := hb.congr rfl rfl
          obtain ⟨toMemory', toCore', heq, hb'⟩ := sendBack_view hw₁ hm hfits.2 hfits.1 hb₁
          refine ⟨toMemory', toCore', ?_, hb'⟩
          simp only [Simulator.drainBypass, hq', hview]
          exact (if_pos hgo).trans heq
      · next hgo =>
          refine matches_still fun toMemory toCore => ?_
          simp only [Simulator.drainBypass, hq']
          exact if_neg hgo

theorem drainSsrcBypass_matches (hw : t.Wired) {memId : Nat} (hm : memId < t.sim.nMemories) :
    Matches t (t.drainSsrcBypass memId)
      (fun a => a.drainSsrcBypass (t.icnt.isFull (t.memNode memId)) memId) := by
  unfold drainSsrcBypass
  cases hq : (t.sim.channels memId).pimSsrcBypassQueue with
  | nil =>
      refine matches_still fun toMemory toCore => ?_
      have hq' : ((t.viewWith toMemory toCore).channels memId).pimSsrcBypassQueue = [] := hq
      simp only [Simulator.drainSsrcBypass, hq']
  | cons e rest =>
      obtain ⟨ready, front⟩ := e
      have hq' : ∀ toMemory toCore,
          ((t.viewWith toMemory toCore).channels memId).pimSsrcBypassQueue =
            (ready, front) :: rest := fun _ _ => hq
      dsimp only
      split
      · next hgo =>
          refine ⟨⟨rfl, rfl, rfl, rfl, rfl⟩, fun toMemory toCore hb hshape => ?_⟩
          have hfits := hshape (.ssrcBypass memId) front (by
            simp [Simulator.contents, Channel.contents, hq'])
          have hview := viewWith_updateChannel t toMemory toCore memId
            (f := fun ch => { ch with pimSsrcBypassQueue := rest }) fun _ _ _ _ => rfl
          set t₁ : MemorySystem :=
            { t with sim := t.sim.updateChannel memId fun ch => { ch with pimSsrcBypassQueue := rest } }
            with ht₁
          have hw₁ : t₁.Wired := ⟨hw.nNodes, hw.nCh, hw.channelId⟩
          have hb₁ : t₁.Bags toMemory toCore := hb.congr rfl rfl
          obtain ⟨toMemory', toCore', heq, hb'⟩ := sendBack_view hw₁ hm hfits.2 hfits.1 hb₁
          refine ⟨toMemory', toCore', ?_, hb'⟩
          simp only [Simulator.drainSsrcBypass, hq', hview]
          exact (if_pos hgo).trans heq
      · next hgo =>
          refine matches_still fun toMemory toCore => ?_
          simp only [Simulator.drainSsrcBypass, hq']
          exact if_neg hgo

theorem dramResponse_matches (hw : t.Wired) {memId : Nat} (hm : memId < t.sim.nMemories) :
    Matches t (t.dramResponse memId)
      (fun a => a.dramResponse (t.icnt.isFull (t.memNode memId)) memId) := by
  unfold dramResponse SimpleDram.top
  cases hq : t.dram.responseQueue memId with
  | nil =>
      refine matches_still fun toMemory toCore => ?_
      have hq' : ((t.viewWith toMemory toCore).channels memId).dramResponses = [] := hq
      simp only [Simulator.dramResponse, hq']
  | cons response rest =>
      have hq' : ∀ toMemory toCore, ((t.viewWith toMemory toCore).channels memId).dramResponses =
          response :: rest := fun _ _ => hq
      simp only [List.head?_cons, SimpleInterconnect.isFull, Bool.false_eq_true, if_false]
      refine ⟨⟨rfl, rfl, rfl, rfl, rfl⟩, fun toMemory toCore hb hshape => ?_⟩
      have hfits := hshape (.dram memId) response (by
        simp [Simulator.contents, Channel.contents, hq'])
      have hview : ((t.viewWith toMemory toCore).updateChannel memId fun ch =>
          { ch with dramResponses := rest }) =
          ({ t with dram := t.dram.pop memId } : MemorySystem).viewWith toMemory toCore := by
        refine eq_viewWith rfl rfl rfl (fun _ => rfl) fun m => ?_
        by_cases hmm : m = memId
        · subst hmm
          simp [Simulator.updateChannel, viewWith, view, SimpleDram.pop, hq, memNode]
        · simp [Simulator.updateChannel, Function.update_of_ne hmm, viewWith, view, SimpleDram.pop,
            memNode]
      set t₁ : MemorySystem := { t with dram := t.dram.pop memId } with ht₁
      have hw₁ : t₁.Wired := ⟨hw.nNodes, hw.nCh, hw.channelId⟩
      have hb₁ : t₁.Bags toMemory toCore := hb.congr rfl rfl
      obtain ⟨toMemory', toCore', heq, hb'⟩ := sendBack_view hw₁ hm hfits.2 hfits.1 hb₁
      refine ⟨toMemory', toCore', ?_, hb'⟩
      simp only [Simulator.dramResponse, hq', hview]
      exact heq

theorem viewWith_noteTlm (t : MemorySystem) (toMemory toCore : Nat → List MemoryAccess)
    (memId : Nat) (selected : Option MemoryAccess) :
    (t.viewWith toMemory toCore).noteTlmReadIssueWindow memId selected =
      ({ t with sim := { t.sim with
          pimCmdStats := (t.view.noteTlmReadIssueWindow memId selected).pimCmdStats } } :
        MemorySystem).viewWith toMemory toCore := by
  unfold Simulator.noteTlmReadIssueWindow
  by_cases h₁ : (!t.view.isPimChannel memId) = true
  · rw [if_pos h₁]
    exact (if_pos h₁).trans rfl
  · rw [if_neg h₁]
    refine (if_neg h₁).trans ?_
    by_cases h₂ : (!t.view.hasCandidate Simulator.isTlmRead memId selected) = true
    · rw [if_pos h₂]
      exact (if_pos h₂).trans rfl
    · rw [if_neg h₂]
      exact (if_neg h₂).trans rfl

/-- A request lands, and leaves its queue, in both. -/
theorem viewWith_land (t : MemorySystem) (toMemory toCore : Nat → List MemoryAccess) (memId : Nat)
    (front : MemoryAccess) (landing : Simulator.Landing) (index : Option Nat) :
    ((t.viewWith toMemory toCore).updateChannel memId fun ch =>
        Simulator.takeIncoming index ((t.viewWith toMemory toCore).land front ch landing)) =
      ((t.land memId front landing).takeIncoming memId index).viewWith toMemory toCore := by
  have hland : ((t.viewWith toMemory toCore).updateChannel memId fun ch =>
      (t.viewWith toMemory toCore).land front ch landing) =
      (t.land memId front landing).viewWith toMemory toCore := by
    cases landing with
    | dram => exact viewWith_dramPush t toMemory toCore memId front
    | _ => exact viewWith_updateChannel t toMemory toCore memId fun _ _ _ _ => rfl
  rw [← updateChannel_comp, hland]
  cases index with
  | some i => exact viewWith_updateChannel _ toMemory toCore memId fun _ _ _ _ => rfl
  | none => exact viewWith_icntPop _ toMemory toCore memId

theorem land_alike (t : MemorySystem) (memId : Nat) (front : MemoryAccess)
    (landing : Simulator.Landing) (index : Option Nat) :
    Alike t ((t.land memId front landing).takeIncoming memId index) ∧
      ((t.land memId front landing).takeIncoming memId index).icnt.inFlight = t.icnt.inFlight := by
  cases landing <;> cases index <;> exact ⟨⟨rfl, rfl, rfl, rfl, rfl⟩, rfl⟩

theorem accept_view (t : MemorySystem) (memId : Nat) (front : MemoryAccess) (index : Option Nat) :
    Alike t (t.accept memId front index).1 ∧
      (t.accept memId front index).1.icnt.inFlight = t.icnt.inFlight ∧
      ∀ toMemory toCore, (t.viewWith toMemory toCore).accept memId front index =
        ((t.accept memId front index).1.viewWith toMemory toCore,
          (t.accept memId front index).2) := by
  have hroute : ∀ toMemory toCore,
      (t.viewWith toMemory toCore).route memId front = t.view.route memId front := fun _ _ => rfl
  unfold accept Simulator.accept
  simp only [hroute]
  obtain ⟨landing, pim, ssrc⟩ := t.view.route memId front
  dsimp only
  obtain ⟨halike, hflight⟩ := land_alike t memId front landing index
  have hview := fun toMemory toCore => viewWith_land t toMemory toCore memId front landing index
  generalize (t.land memId front landing).takeIncoming memId index = t' at halike hflight hview
  set t₁ : MemorySystem := { t' with sim := { t'.sim with pim := pim, ssrc := ssrc } } with ht₁
  have halike₁ : Alike t t₁ := ⟨halike.nCores, halike.config, halike.channelId, halike.nNodes, halike.nCh⟩
  -- the overlay is not part of the backends
  have hview₁ : ∀ toMemory toCore,
      (({ t.viewWith toMemory toCore with pim := pim, ssrc := ssrc } : Simulator).updateChannel memId
        fun ch => Simulator.takeIncoming index
          ((t.viewWith toMemory toCore).land front ch landing)) =
      t₁.viewWith toMemory toCore := fun toMemory toCore =>
    congrArg (fun a : Simulator => { a with pim := pim, ssrc := ssrc }) (hview toMemory toCore)
  simp only [hview₁]
  cases landing.issues with
  | true =>
      have hsame := noteIssued_alike t₁ memId
      refine ⟨halike₁.trans ⟨hsame.nCores, hsame.config, hsame.channelId, rfl, rfl⟩, hflight,
        fun toMemory toCore => ?_⟩
      simp only [if_true, viewWith_noteIssued]
      rfl
  | false =>
      exact ⟨⟨halike₁.nCores, halike₁.config, halike₁.channelId, halike₁.nNodes, halike₁.nCh⟩,
        hflight, fun toMemory toCore => rfl⟩

theorem issue_matches (memId : Nat) :
    Matches t (t.issue memId) (fun a => a.issue (t.dram.isFull memId) memId) := by
  have hincoming : ∀ toMemory toCore,
      (t.viewWith toMemory toCore).incoming (t.dram.isFull memId) memId =
        t.view.incoming (t.dram.isFull memId) memId := fun _ _ => rfl
  cases hsel : t.view.incoming (t.dram.isFull memId) memId with
  | none =>
      have hissue : t.issue memId = ({ t with sim := { t.sim with
          pimCmdStats := (t.view.noteTlmReadIssueWindow memId none).pimCmdStats } }, []) := by
        simp only [issue, hsel, Option.map_none]
      rw [hissue]
      refine ⟨⟨rfl, rfl, rfl, rfl, rfl⟩, fun toMemory toCore hb _ =>
        ⟨toMemory, toCore, ?_, hb.congr rfl rfl⟩⟩
      simp only [Simulator.issue, hincoming, hsel, viewWith_noteTlm, Option.map_none]
  | some r =>
      obtain ⟨front, index⟩ := r
      set t₁ : MemorySystem := { t with sim := { t.sim with
        pimCmdStats := (t.view.noteTlmReadIssueWindow memId (some front)).pimCmdStats } } with ht₁
      have hissue : t.issue memId = t₁.accept memId front index := by
        simp only [issue, hsel, Option.map_some, SimpleDram.isFull, Bool.false_eq_true, if_false, ht₁]
      rw [hissue]
      have halike₁ : Alike t t₁ := ⟨rfl, rfl, rfl, rfl, rfl⟩
      obtain ⟨halike, hflight, hview⟩ := accept_view t₁ memId front index
      refine ⟨halike₁.trans halike, fun toMemory toCore hb _ =>
        ⟨toMemory, toCore, ?_, hb.congr hflight (halike₁.trans halike).nCores⟩⟩
      simp only [Simulator.issue, hincoming, hsel, viewWith_noteTlm, Option.map_some]
      exact hview toMemory toCore

/-- **A part of the loop does the same in both.** -/
theorem op_matches (hw : t.Wired) {o : Op} (ho : Inside t.sim o) :
    Matches t (t.op o) (fun a => a.op {} o) := by
  cases o with
  | coreRequest coreId => exact coreRequest_matches hw ho
  | coreResponse coreId => exact coreResponse_matches ho
  | noteCandidate memId => exact noteCandidate_matches memId
  | drainHold memId => exact drainHold_matches memId
  | refill memId => exact refill_matches memId
  | issue memId => exact issue_matches memId
  | drainBypass memId => exact drainBypass_matches hw ho
  | drainSsrcBypass memId => exact drainSsrcBypass_matches hw ho
  | dramResponse memId => exact dramResponse_matches hw ho

theorem Inside.alike {t t' : MemorySystem} (h : Alike t t') {o : Op} (ho : Inside t.sim o) :
    Inside t'.sim o := by
  cases o <;> simp only [Inside, h.nCores, h.nMemories] at ho ⊢ <;> exact ho

theorem runOps_matches : ∀ (os : List Op) (t : MemorySystem), t.Wired →
    (∀ o ∈ os, Inside t.sim o) → Matches t (runOps os t) (Simulator.runOps {} os) := by
  intro os
  induction os with
  | nil => exact fun t _ _ => matches_still fun _ _ => rfl
  | cons o os ih =>
      intro t hw hos
      obtain ⟨halike, hstep⟩ := op_matches hw (hos o List.mem_cons_self)
      obtain ⟨halike', hrest⟩ := ih (t.op o).1 (halike.wired hw) fun o' ho' =>
        (hos o' (List.mem_cons_of_mem o ho')).alike halike
      refine ⟨halike.trans halike', fun toMemory toCore hb hshape => ?_⟩
      obtain ⟨toMemory₁, toCore₁, heq, hb₁⟩ := hstep toMemory toCore hb hshape
      dsimp only at heq
      have hshape₁ := Simulator.chain_shape (Simulator.op_chain hshape {} o) hshape
      rw [heq] at hshape₁
      obtain ⟨toMemory₂, toCore₂, heq', hb₂⟩ := hrest toMemory₁ toCore₁ hb₁ hshape₁
      refine ⟨toMemory₂, toCore₂, ?_, hb₂⟩
      simp only [Simulator.runOps, heq, heq']
      rfl

theorem ops_inside (s : Simulator) : ∀ o ∈ s.ops, Inside s o := by
  intro o ho
  rcases List.mem_append.mp ho with ho | ho
  · obtain ⟨coreId, hlt, ho⟩ := List.mem_flatMap.mp ho
    have hlt := List.mem_range.mp hlt
    simp only [Simulator.coreOps, List.mem_cons, List.not_mem_nil, or_false] at ho
    rcases ho with rfl | rfl <;> exact hlt
  · obtain ⟨memId, hlt, ho⟩ := List.mem_flatMap.mp ho
    have hlt := List.mem_range.mp hlt
    simp only [Simulator.channelOps, List.mem_cons, List.not_mem_nil, or_false] at ho
    rcases ho with rfl | rfl | rfl | rfl | rfl | rfl | rfl <;> exact hlt

/-! ## 4. The cycles of the backends -/

/-- What the backends do is a run of the open model, with the same transfers. -/
def Follows (t : MemorySystem) (r : MemorySystem × List Transfer) : Prop :=
  Alike t r.1 ∧ ∀ toMemory toCore, t.Bags toMemory toCore →
    ∃ toMemory' toCore', Exec Simulator.machine (t.viewWith toMemory toCore)
      (r.1.viewWith toMemory' toCore') r.2 ∧ r.1.Bags toMemory' toCore'

theorem follows_still (t : MemorySystem) : Follows t (t, []) :=
  ⟨.refl t, fun toMemory toCore hb => ⟨toMemory, toCore, .start, hb⟩⟩

theorem Follows.trans {t t' t'' : MemorySystem} {e e' : List Transfer} (h : Follows t (t', e))
    (h' : Follows t' (t'', e')) : Follows t (t'', e ++ e') := by
  refine ⟨h.1.trans h'.1, fun toMemory toCore hb => ?_⟩
  obtain ⟨toMemory₁, toCore₁, hr, hb₁⟩ := h.2 toMemory toCore hb
  obtain ⟨toMemory₂, toCore₂, hr', hb₂⟩ := h'.2 toMemory₁ toCore₁ hb₁
  exact ⟨toMemory₂, toCore₂, hr.trans hr', hb₂⟩

/-- One act of the open model. -/
theorem exec_one {a a' : Simulator} {act : MemoryAct} {e : List Transfer}
    (h : a.exec act = some (a', e)) : Exec Simulator.machine a a' e := by
  have hs : Simulator.machine.step a act = some a' := by simp [Simulator.machine, h]
  have hr := Exec.one hs
  simpa [Simulator.machine, h] using hr

/-- The lists after something was put behind one of them, and something taken from one. -/
theorem eraseIdx_perm {l l' : List MemoryAccess} {access : MemoryAccess} {i : Nat}
    (hi : l[i]? = some access) (hp : l.Perm (access :: l')) : (l.eraseIdx i).Perm l' := by
  obtain ⟨hlt, hget⟩ := List.getElem?_eq_some_iff.mp hi
  have htook := List.getElem_cons_eraseIdx_perm hlt
  rw [hget] at htook
  exact List.Perm.cons_inv (htook.trans hp)

/-- The interconnect brings over one packet. -/
structure Brings (icnt icnt' : SimpleInterconnect) (dest : Nat) (access : MemoryAccess) : Prop where
  nNodes : icnt'.nNodes = icnt.nNodes
  own : (icnt.inFlight dest).Perm (access :: icnt'.inFlight dest)
  other : ∀ node, dest ≠ node → (icnt.inFlight node).Perm (icnt'.inFlight node)
  put : icnt'.outBuffers dest = icnt.outBuffers dest ++ [access]
  keep : ∀ node, node ≠ dest → icnt'.outBuffers node = icnt.outBuffers node

theorem brings_core {icnt' : SimpleInterconnect} {coreId : Nat} {access : MemoryAccess} (src : Nat)
    (hbr : Brings t.icnt icnt' coreId access) (hcore : coreId < t.sim.nCores) :
    Follows t ({ t with icnt := icnt' }, t.delivered (.brought src coreId access)) := by
  refine ⟨⟨rfl, rfl, rfl, hbr.nNodes, rfl⟩, fun toMemory toCore hb => ?_⟩
  have hnode : t.nodeAt coreId = .core coreId := if_pos hcore
  have hbag := hb.core coreId
  rw [if_pos hcore] at hbag
  have hmem : access ∈ toCore coreId := (hbag.trans hbr.own).mem_iff.mpr List.mem_cons_self
  obtain ⟨i, hi⟩ := List.mem_iff_getElem?.mp hmem
  refine ⟨toMemory, Function.update toCore coreId ((toCore coreId).eraseIdx i), ?_, ?_, ?_⟩
  · have hi' : ((t.viewWith toMemory toCore).toCore coreId)[i]? = some access := hi
    refine @exec_one _ _ (.deliver (.core coreId) i) _ ?_
    simp only [Simulator.exec, Simulator.deliver, hi', Option.map_some, delivered, hnode]
    refine congrArg some (Prod.ext (eq_viewWith rfl rfl rfl (fun c => ?_) fun m => ?_) rfl)
    · by_cases hc : c = coreId
      · subst hc
        simp [viewWith, view, hcore, hbr.put]
      · simp [viewWith, view, hc, hbr.keep c hc]
    · have hne : t.sim.nCores + m ≠ coreId := by omega
      simp [viewWith, view, memNode, hbr.keep _ hne]
  · intro m
    have hne : coreId ≠ t.memNode m := by
      unfold memNode
      omega
    exact (hb.memory m).trans (hbr.other _ hne)
  · intro c
    by_cases hc : c = coreId
    · subst hc
      rw [Function.update_self, if_pos hcore]
      exact eraseIdx_perm hi (hbag.trans hbr.own)
    · rw [Function.update_of_ne hc]
      refine (hb.core c).trans ?_
      split
      · exact hbr.other c (Ne.symm hc)
      · exact .refl _

theorem brings_memory {icnt' : SimpleInterconnect} {memId : Nat} {access : MemoryAccess} (src : Nat)
    (hbr : Brings t.icnt icnt' (t.memNode memId) access) :
    Follows t ({ t with icnt := icnt' }, t.delivered (.brought src (t.memNode memId) access)) := by
  refine ⟨⟨rfl, rfl, rfl, hbr.nNodes, rfl⟩, fun toMemory toCore hb => ?_⟩
  have hnode : t.nodeAt (t.memNode memId) = .memory memId := by
    unfold nodeAt memNode
    rw [if_neg (by omega), Nat.add_sub_cancel_left]
  have hbag := (hb.memory memId).trans hbr.own
  obtain ⟨i, hi⟩ := List.mem_iff_getElem?.mp (hbag.mem_iff.mpr List.mem_cons_self)
  refine ⟨Function.update toMemory memId ((toMemory memId).eraseIdx i), toCore, ?_, ?_, ?_⟩
  · have hi' : ((t.viewWith toMemory toCore).toMemory memId)[i]? = some access := hi
    refine @exec_one _ _ (.deliver (.memory memId) i) _ ?_
    simp only [Simulator.exec, Simulator.deliver, hi', Option.map_some, delivered, hnode]
    refine congrArg some (Prod.ext (eq_viewWith rfl rfl rfl (fun c => ?_) fun m => ?_) rfl)
    · by_cases hc : c < t.sim.nCores
      · have hne : c ≠ t.memNode memId := by
          unfold memNode
          omega
        simp [Simulator.updateChannel, viewWith, view, hc, hbr.keep c hne]
      · simp [Simulator.updateChannel, viewWith, view, hc]
    · by_cases hm : m = memId
      · subst hm
        have hput := hbr.put
        unfold memNode at hput
        simp [Simulator.updateChannel, viewWith, view, memNode, hput]
      · have hne : t.memNode m ≠ t.memNode memId := by
          unfold memNode
          omega
        have hkeep := hbr.keep _ hne
        unfold memNode at hkeep
        simp only [Simulator.updateChannel, Function.update_of_ne hm, viewWith, view, memNode, hkeep]
  · intro m
    by_cases hm : m = memId
    · subst hm
      rw [Function.update_self]
      exact eraseIdx_perm hi hbag
    · rw [Function.update_of_ne hm]
      have hne : t.memNode memId ≠ t.memNode m := by
        unfold memNode
        omega
      exact (hb.memory m).trans (hbr.other _ hne)
  · intro c
    refine (hb.core c).trans ?_
    dsimp only
    split
    · have hne : t.memNode memId ≠ c := by
        unfold memNode
        omega
      exact hbr.other c hne
    · exact .refl _

/-- A node's turn in the interconnect is a delivery, or nothing. -/
theorem serve_follows {src : Nat} (hsrc : src < t.icnt.nNodes) :
    Follows t ({ t with icnt := (t.icnt.serve src).1 }, (t.icnt.serve src).2.flatMap t.delivered) := by
  by_cases hstill : ∀ d, t.icnt.wants src = some d → t.icnt.busyNode d = true
  · rw [SimpleInterconnect.serve_still hstill]
    exact follows_still t
  · obtain ⟨d, hwants, hfree⟩ : ∃ d, t.icnt.wants src = some d ∧ t.icnt.busyNode d = false := by
      simpa using hstill
    obtain ⟨front, rest, hq, hd, hserve⟩ := SimpleInterconnect.serve_granted hwants hfree
    have hfront : t.icnt.inBuffers src =
        { finishCycle := front.finishCycle, dest := d, access := front.access } :: rest := by
      rw [hq, ← hd]
    have hbr : Brings t.icnt (t.icnt.serve src).1 d front.access := by
      rw [hserve]
      have hflight := fun node => SimpleInterconnect.inFlight_brought
        { t.icnt with
          inBuffers := Function.update t.icnt.inBuffers src rest
          outBuffers := Function.update t.icnt.outBuffers d (t.icnt.outBuffers d ++ [front.access])
          busyNode := Function.update t.icnt.busyNode d true } hsrc rfl hfront
        (Function.update_self src rest t.icnt.inBuffers)
        (fun k hk => Function.update_of_ne hk rest t.icnt.inBuffers) node
      refine ⟨rfl, ?_, fun node hne => ?_, Function.update_self _ _ _,
        fun node hne => Function.update_of_ne hne _ _⟩
      · exact (hflight d).trans (.of_eq (if_pos rfl))
      · exact (hflight node).trans (.of_eq (if_neg hne))
    have hevent : (t.icnt.serve src).2.flatMap t.delivered =
        t.delivered (.brought src d front.access) := by
      rw [hserve]
      exact List.append_nil _
    rw [hevent]
    by_cases hcore : d < t.sim.nCores
    · exact brings_core src hbr hcore
    · obtain ⟨memId, rfl⟩ : ∃ memId, d = t.memNode memId :=
        ⟨d - t.sim.nCores, by unfold memNode; omega⟩
      exact brings_memory src hbr

theorem serveAll_follows : ∀ (nodes : List Nat) (t : MemorySystem), (∀ n ∈ nodes, n < t.icnt.nNodes) →
    Follows t ({ t with icnt := (SimpleInterconnect.serveAll nodes t.icnt).1 },
      (SimpleInterconnect.serveAll nodes t.icnt).2.flatMap t.delivered) := by
  intro nodes
  induction nodes with
  | nil => exact fun t _ => follows_still t
  | cons node nodes ih =>
      intro t hin
      have hfirst := serve_follows (hin node List.mem_cons_self)
      have hrest := ih { t with icnt := (t.icnt.serve node).1 } fun n hn => by
        rw [hfirst.1.nNodes]
        exact hin n (List.mem_cons_of_mem node hn)
      have hboth := hfirst.trans hrest
      rw [SimpleInterconnect.serveAll, List.flatMap_append]
      exact hboth

theorem icntStep_follows (t : MemorySystem) : Follows t t.icntStep := by
  have hin : ∀ n ∈ t.icnt.order, n < t.icnt.nNodes := by
    intro n hn
    obtain ⟨i, hi, rfl⟩ := List.mem_map.mp hn
    exact Nat.mod_lt _ (Nat.zero_lt_of_lt (List.mem_range.mp hi))
  -- the round-robin pointer and the clock are not seen
  obtain ⟨halike, hfollow⟩ := serveAll_follows t.icnt.order t hin
  refine ⟨⟨rfl, rfl, rfl, halike.nNodes, rfl⟩, fun toMemory toCore hb => ?_⟩
  obtain ⟨toMemory', toCore', hr, hb'⟩ := hfollow toMemory toCore hb
  exact ⟨toMemory', toCore', hr, hb'.congr rfl rfl⟩

/-- A channel's turn in the DRAM is an answer, or nothing. -/
theorem dramServe_follows (t : MemorySystem) (memId : Nat) :
    Follows t ({ t with dram := (t.dram.serve memId).1 }, []) := by
  unfold SimpleDram.serve
  cases hq : t.dram.waitingQueue memId with
  | nil => exact follows_still t
  | cons e rest =>
      obtain ⟨finish, access⟩ := e
      dsimp only
      by_cases hdue : finish ≤ t.dram.cycles
      · rw [if_pos hdue]
        refine ⟨⟨rfl, rfl, rfl, rfl, rfl⟩, fun toMemory toCore hb =>
          ⟨toMemory, toCore, ?_, hb.congr rfl rfl⟩⟩
        refine @exec_one _ _ (.answer memId 0) _ ?_
        have hfirst : ((t.viewWith toMemory toCore).channels memId).dramQueue =
            access :: rest.map Prod.snd := congrArg (List.map Prod.snd) hq
        simp only [Simulator.exec, Simulator.answer, hfirst, List.getElem?_cons_zero,
          Option.map_some]
        refine congrArg some (Prod.ext (eq_viewWith rfl rfl rfl (fun _ => rfl) fun m => ?_) rfl)
        by_cases hm : m = memId
        · subst hm
          simp [Simulator.updateChannel, viewWith, view, memNode, hq]
        · simp [Simulator.updateChannel, viewWith, view, memNode, hm]
      · rw [if_neg hdue]
        exact follows_still t

theorem dramServeAll_follows : ∀ (chs : List Nat) (t : MemorySystem),
    Follows t ({ t with dram := (SimpleDram.serveAll chs t.dram).1 }, []) := by
  intro chs
  induction chs with
  | nil => exact follows_still
  | cons ch chs ih =>
      intro t
      exact (dramServe_follows t ch).trans (ih { t with dram := (t.dram.serve ch).1 })

theorem dramCycle_follows (t : MemorySystem) : Follows t (t.dramCycle, []) := by
  obtain ⟨halike, hfollow⟩ := dramServeAll_follows (List.range t.dram.nCh) t
  refine ⟨⟨rfl, rfl, rfl, rfl, halike.nCh⟩, fun toMemory toCore hb => ?_⟩
  obtain ⟨toMemory', toCore', hr, hb'⟩ := hfollow toMemory toCore hb
  exact ⟨toMemory', toCore', hr, hb'.congr rfl rfl⟩

/-! ## 5. Whole runs -/

/-- The acts that concern no backend do the same in both. -/
theorem side_view {a : MemoryAct} (ha : a.aside = true) {sim : Simulator} {e : List Transfer}
    (h : t.sim.exec a = some (sim, e)) :
    Alike t { t with sim := sim } ∧ ∀ toMemory toCore,
      (t.viewWith toMemory toCore).exec a =
        some (({ t with sim := sim } : MemorySystem).viewWith toMemory toCore, e) := by
  cases a with
  | deliver | answer | icntCycle => cases ha
  | load coreId slot access | store coreId access =>
      simp only [Simulator.exec] at h
      split at h
      · next hc =>
          cases h
          exact ⟨⟨rfl, rfl, rfl, rfl, rfl⟩, fun toMemory toCore => if_pos hc⟩
      · cases h
  | coreCycle | pimCycle | requestGtsuSwitch | switchAllPimTo | scheduleHold | ssrc =>
      cases h
      exact ⟨⟨rfl, rfl, rfl, rfl, rfl⟩, fun toMemory toCore => rfl⟩

/-- A state of the memory side with its backends, and one of the open model. -/
structure Refines (t : MemorySystem) (a : Simulator) : Prop where
  wired : t.Wired
  view : ∃ toMemory toCore, a = t.viewWith toMemory toCore ∧ t.Bags toMemory toCore

/-- The account is one of the requests the backends hold, too. -/
theorem Refines.account {a : Simulator} {h : List Transfer} (hr : t.Refines a)
    (ha : Simulator.Account a h) : Simulator.Account t.view h := by
  obtain ⟨-, toMemory, toCore, rfl, hb⟩ := hr
  have hperm : ∀ p, (t.view.contents p).Perm ((t.viewWith toMemory toCore).contents p) := by
    intro p
    cases p with
    | toMemory m => exact (hb.memory m).symm
    | toCore c => exact (hb.core c).symm
    | _ => exact .refl _
  have hstill := Simulator.chain_account (.one (.still hperm (.of_cores rfl rfl rfl))) ha
  rwa [List.append_nil] at hstill

/-- **An act is a run of the open model**, with the same transfers. -/
theorem exec_refines {a : Simulator} (hr : t.Refines a) (hshape : a.Shape) {act : SystemAct}
    {t' : MemorySystem} {e : List Transfer} (he : t.exec act = some (t', e)) :
    ∃ a', Exec Simulator.machine a a' e ∧ t'.Refines a' := by
  obtain ⟨hw, toMemory, toCore, rfl, hb⟩ := hr
  cases act with
  | side act =>
      simp only [exec] at he
      split at he
      · next haside =>
          obtain ⟨⟨sim, e'⟩, hsim, heq⟩ := Option.map_eq_some_iff.mp he
          cases heq
          obtain ⟨halike, hview⟩ := side_view haside hsim
          exact ⟨_, exec_one (hview toMemory toCore), halike.wired hw, toMemory, toCore, rfl,
            hb.congr rfl halike.nCores⟩
      · cases he
  | dramCycle =>
      cases he
      obtain ⟨halike, hfollow⟩ := dramCycle_follows t
      obtain ⟨toMemory', toCore', hrun, hb'⟩ := hfollow toMemory toCore hb
      exact ⟨_, hrun, halike.wired hw, toMemory', toCore', rfl, hb'⟩
  | icntCycle =>
      cases he
      obtain ⟨halike, hloop⟩ := runOps_matches t.sim.ops t hw (ops_inside t.sim)
      obtain ⟨toMemory₁, toCore₁, heq, hb₁⟩ := hloop toMemory toCore hb hshape
      obtain ⟨halike', hfollow⟩ := icntStep_follows (runOps t.sim.ops t).1
      obtain ⟨toMemory₂, toCore₂, hrun, hb₂⟩ := hfollow toMemory₁ toCore₁ hb₁
      have hfirst : Exec Simulator.machine (t.viewWith toMemory toCore)
          ((runOps t.sim.ops t).1.viewWith toMemory₁ toCore₁) (runOps t.sim.ops t).2 :=
        @exec_one _ _ (.icntCycle {}) _ (congrArg some heq)
      exact ⟨_, hfirst.trans hrun, halike'.wired (halike.wired hw), toMemory₂, toCore₂, rfl, hb₂⟩

end MemorySystem

namespace MemorySystemSetup

theorem start_refines (c : MemorySystemSetup) : c.start.Refines c.memorySetup.start := by
  refine ⟨⟨rfl, rfl, fun address => ?_⟩, fun _ => [], fun _ => [], ?_, fun m => ?_, fun coreId => ?_⟩
  · obtain ⟨id, hid, hlt⟩ := getChannelId_lt c.channels c.dramReqSize
      { id := 0, dramAddress := address, size := 0, write := false, request := true, coreId := 0 }
    simp only [start, memorySetup, MemorySetup.start, channelId, hid]
    exact hlt
  · refine MemorySystem.eq_viewWith rfl rfl rfl (fun coreId => ?_) fun _ => rfl
    exact (ite_self _).symm
  · simp [SimpleInterconnect.inFlight, start, SimpleInterconnect.new]
  · simp [SimpleInterconnect.inFlight, start, SimpleInterconnect.new]

/-- **The backends keep to the open model**: every run of the memory side with its backends is a run
    of the open model that makes the same transfers in the same order and ends in the same state, up
    to the order in which the interconnect keeps what is on its way. -/
theorem refines (c : MemorySystemSetup) {as : List SystemAct} {t : MemorySystem}
    {h : List Transfer} (hr : c.run as = some (t, h)) :
    ∃ bs a, c.memorySetup.run bs = some (a, h) ∧ t.Refines a := by
  have hexec : ∃ a, Exec Simulator.machine c.memorySetup.start a h ∧ t.Refines a := by
    refine (exec_of_run hr).invariant (P := fun t h =>
      ∃ a, Exec Simulator.machine c.memorySetup.start a h ∧ t.Refines a)
      ⟨_, .start, c.start_refines⟩ ?_
    rintro t h act t' ⟨a, hrun, href⟩ hs
    obtain ⟨bs, hbs⟩ := run_of_exec hrun
    obtain ⟨⟨t₁, e⟩, he, rfl⟩ := Option.map_eq_some_iff.mp hs
    obtain ⟨a', hrun', href'⟩ :=
      MemorySystem.exec_refines href (MemorySetup.account hbs).shape he
    refine ⟨a', ?_, href'⟩
    have hobs : MemorySystem.machine.obs t act t₁ = e := by simp [MemorySystem.machine, he]
    rw [hobs]
    exact hrun.trans hrun'
  obtain ⟨a, hrun, href⟩ := hexec
  obtain ⟨bs, hbs⟩ := run_of_exec hrun
  exact ⟨bs, a, hbs, href⟩

/-- **Every request is in one place of the memory side with its backends**, until its core has the
    answer. -/
theorem conserves (c : MemorySystemSetup) {as : List SystemAct} {t : MemorySystem}
    {h : List Transfer} (hr : c.run as = some (t, h)) : Simulator.Conserved t.view h := by
  obtain ⟨bs, a, hbs, href⟩ := c.refines hr
  exact (href.account (MemorySetup.account hbs)).conserved

/-! ## 6. A set-up for closed runs -/

/-- Three cores and one channel; a packet takes a cycle, an answer two. -/
def sample : MemorySystemSetup where
  config := memorySample.config
  nCores := memorySample.nCores
  dramReqSize := 32
  icntLatency := 1
  dramLatency := 2
  rrStart := 0
  lastFinishCycle := 0
  channels := .inl ⟨by decide, by decide⟩
  nodes := by decide
  noWrap := by decide

/-- Two cores write while the channel is switched. -/
def sampleActs : List SystemAct :=
  [.side (.requestGtsuSwitch 0 1 0), .side (.store 0 sampleAccess), .side (.store 1 sampleAccess),
    .icntCycle, .icntCycle, .icntCycle, .side .coreCycle, .side .coreCycle, .icntCycle, .dramCycle,
    .dramCycle, .dramCycle, .icntCycle, .icntCycle, .icntCycle, .icntCycle]

/-- One write is parked, both go into the DRAM, and a core has its answer. -/
theorem refines_sample : ∃ t h, sample.run sampleActs = some (t, h) ∧
    (some (.hold 0) ∈ h.map Transfer.dst ∧ none ∈ h.map Transfer.dst) ∧
    ∃ bs a, sample.memorySetup.run bs = some (a, h) ∧ t.Refines a := by
  obtain ⟨⟨t, h⟩, hrun, hdst⟩ := (Option.any_eq_true _ _).mp (show
    (sample.run sampleActs).any (fun r => (r.2.map Transfer.dst).contains (some (.hold 0)) &&
      (r.2.map Transfer.dst).contains none) = true by decide +kernel)
  exact ⟨t, h, hrun, by simpa using hdst, refines sample hrun⟩

end MemorySystemSetup

end Ahasd
