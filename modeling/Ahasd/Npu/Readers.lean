/-
  File:      Ahasd/Npu/Readers.lean
  Subject:   WHO READS WHAT A CORE LOADS.

  A load that is on its way has a reader: an instruction of a tile that runs, or of a tile that is
  still to come. The reader is not issued before the load has come back, since its slot is not hit;
  so while there are loads, there are tiles.

  * `Instruction.reads`, `Program.Reads`: what a program still reads;
  * `Served`: every load, those on their way and those to be issued, is read; one lemma for each
    part of a cycle (`Served.finish`, `Served.load`, `Served.execute`, `Served.store`,
    `Served.issueInst`, `Served.finishTile`), and **`Served.cycle`**;
  * **`Served.issue`**: a tile is issued, if no buffer is emptied that is still being filled.
-/
import Ahasd.Npu.Spads

namespace Ahasd.Npu

/-! ## 1. What a program reads -/

/-- What an instruction waits for before it is issued. -/
def Instruction.reads (inst : Instruction) : List SpadAddress :=
  match inst.opcode with
  | .movin => []
  | .movout | .movoutPool => [inst.dest]
  | _ => inst.sources

/-- A load asks for as many requests as its entry waits for; an entry waits for something. -/
def Instruction.Counted (inst : Instruction) : Prop :=
  (inst.opcode = .movin → inst.srcAddrs.length = inst.size) ∧
    (inst.zeroInit = true → 0 < inst.size)

/-- It holds of every instruction, with those that come after it. -/
def Along (P : Instruction → List Instruction → Prop) : List Instruction → Prop
  | [] => True
  | inst :: after => P inst after ∧ Along P after

theorem Along.imp {P Q : Instruction → List Instruction → Prop}
    (h : ∀ inst after, P inst after → Q inst after) :
    ∀ {insts : List Instruction}, Along P insts → Along Q insts := by
  intro insts
  induction insts with
  | nil => exact id
  | cons inst after ih => exact fun hall => ⟨h inst after hall.1, ih hall.2⟩

/-- What is left of the program of a tile, with the buffers of the tile. -/
structure Program where
  instructions : List Instruction
  spadId : Nat
  accumSpadId : Nat

/-- The slot of an address in a program. -/
def Program.slot (p : Program) (a : SpadAddress) : SpadSlot := a.slot p.spadId p.accumSpadId

/-- The program still reads the slot. -/
def Program.Reads (p : Program) (slot : SpadSlot) : Prop :=
  ∃ inst ∈ p.instructions, ∃ a ∈ inst.reads, p.slot a = slot

def RunningTile.program (t : RunningTile) : Program := ⟨t.instructions, t.spadId, t.accumSpadId⟩

namespace SystolicCore

/-- The programs of the tiles that run. -/
def programs (c : SystolicCore) : List Program := c.tiles.map RunningTile.program

/-- Where the pipelines still have a result to bring. -/
def computing (c : SystolicCore) : List SpadSlot :=
  (c.computePipeline ++ c.vectorPipeline).map Issued.dest

variable {later later' : SpadSlot → Prop} {loads loads' : List SpadSlot} {c c' d : SystolicCore}
  {slot : SpadSlot}

/-- A tile that runs reads the slot, or one that is still to come. -/
def Read (later : SpadSlot → Prop) (c : SystolicCore) (slot : SpadSlot) : Prop :=
  (∃ p ∈ c.programs, p.Reads slot) ∨ later slot

theorem Read.congr (h : Read later c slot) (hp : c'.programs = c.programs) :
    Read later c' slot := by
  unfold Read
  rw [hp]
  exact h

/-- A load that is to be issued will be read by the rest of its program; or it is read, as long as
    its slot is free. -/
def Supplies (later : SpadSlot → Prop) (c : SystolicCore) (p : Program) : Prop :=
  Along (fun inst after => inst.opcode = .movin →
    (∃ r ∈ after, inst.dest ∈ r.reads) ∨
      (c.entry (p.slot inst.dest) = none → Read later c (p.slot inst.dest))) p.instructions

/-- **Every load is read.** `loads` has the slots of the loads on their way. -/
structure Served (later : SpadSlot → Prop) (loads : List SpadSlot) (c : SystolicCore) :
    Prop where
  covers : c.Covers (loads ++ c.computing)
  counted : ∀ p ∈ c.programs, ∀ inst ∈ p.instructions, inst.Counted
  queued : ∀ front ∈ c.ldInstQueue ++ c.exInstQueue, front.inst.Counted
  single : c.ldInstQueue.length ≤ 1
  waiting : ∀ front ∈ c.ldInstQueue, front.inst.opcode = .movin ∧ c.entry front.dest = none ∧
    Read later c front.dest
  loaded : ∀ slot ∈ loads, Read later c slot
  supplies : ∀ p ∈ c.programs, Supplies later c p

/-! ## 2. The parts of a cycle -/

/-- No program is new and every reader stays; no slot becomes free. -/
theorem Served.keep (h : Served later loads c) (hp : ∀ p ∈ c'.programs, p ∈ c.programs)
    (hread : ∀ slot, Read later c slot → Read later' c' slot)
    (hld : c'.ldInstQueue.Sublist c.ldInstQueue) (hex : c'.exInstQueue.Sublist c.exInstQueue)
    (hfree : ∀ slot, c'.entry slot = none → c.entry slot = none)
    (hwait : ∀ front ∈ c'.ldInstQueue, c'.entry front.dest = none)
    (hcovers : c'.Covers (loads' ++ c'.computing))
    (hloads : ∀ slot ∈ loads', Read later c slot) : Served later' loads' c' where
  covers := hcovers
  counted p hmem := h.counted p (hp p hmem)
  queued front hmem := h.queued front ((hld.append hex).subset hmem)
  single := hld.length_le.trans h.single
  waiting front hmem := by
    obtain ⟨hop, _, hslot⟩ := h.waiting front (hld.subset hmem)
    exact ⟨hop, hwait front hmem, hread _ hslot⟩
  loaded slot hmem := hread slot (hloads slot hmem)
  supplies p hmem := (h.supplies p (hp p hmem)).imp fun _ _ hsupply hop =>
    (hsupply hop).imp_right fun hslot hnone => hread _ (hslot (hfree _ hnone))

/-- The programs stay, and no slot becomes free. -/
theorem Served.carry (h : Served later loads c) (hp : c'.programs = c.programs)
    (hld : c'.ldInstQueue.Sublist c.ldInstQueue) (hex : c'.exInstQueue.Sublist c.exInstQueue)
    (hfree : ∀ slot, c'.entry slot = none → c.entry slot = none)
    (hwait : ∀ front ∈ c'.ldInstQueue, c'.entry front.dest = none)
    (hcovers : c'.Covers (loads' ++ c'.computing))
    (hloads : ∀ slot ∈ loads', Read later c slot) : Served later loads' c' :=
  h.keep (fun _ hmem => hp ▸ hmem) (fun _ hread => hread.congr hp) hld hex hfree hwait hcovers
    hloads

theorem Put.free {e : SramEntry} {slot' : SpadSlot} (hput : Put slot e c c')
    (h : c'.entry slot' = none) : c.entry slot' = none := by
  rw [hput.entries] at h
  split at h
  · cases h
  · exact h

theorem Put.keeps_free {e old : SramEntry} {slot' : SpadSlot} (hput : Put slot e c c')
    (hold : c.entry slot = some old) (h : c.entry slot' = none) : c'.entry slot' = none := by
  rw [hput.entries, if_neg, h]
  rintro rfl
  rw [hold] at h
  cases h

/-- **A slot is filled**, by a load or by a pipeline. -/
theorem Served.fill (h : Served later loads c) (hfill : c.fill slot = some d)
    (hentry : c'.entry = d.entry) (hp : c'.programs = c.programs)
    (hld : c'.ldInstQueue = c.ldInstQueue) (hex : c'.exInstQueue = c.exInstQueue)
    (hpending : (loads ++ c.computing).Perm (slot :: (loads' ++ c'.computing)))
    (hloads : ∀ slot ∈ loads', slot ∈ loads) : Served later loads' c' := by
  obtain ⟨old, hold, _, hput⟩ := put_of_fill hfill
  have hcovers := (h.covers.congr rfl hpending.symm).fill hfill
  refine h.carry hp (hld ▸ List.Sublist.refl _) (hex ▸ List.Sublist.refl _) (fun slot' hnone => ?_)
    (fun front hmem => ?_) (hcovers.congr hentry (.refl _))
    fun slot' hmem => h.loaded slot' (hloads slot' hmem)
  · rw [hentry] at hnone
    exact hput.free hnone
  · rw [hentry]
    exact hput.keeps_free hold (h.waiting front (hld ▸ hmem)).2.1

theorem setInstFinished_programs (myTile : Option Nat) (c : SystolicCore) :
    (setInstFinished myTile c).programs = c.programs := by
  unfold programs setInstFinished
  rw [List.map_map]
  refine List.map_congr_left fun t _ => ?_
  simp only [Function.comp_apply]
  split <;> rfl

/-- What the end of a pipeline comes to: nothing, or it is done with its first instruction. -/
inductive Finishes (c : SystolicCore) : SystolicCore → Prop where
  | nothing : Finishes c c
  | done (front : Issued) (compute vector : List Issued) (d : SystolicCore)
      (hfill : c.fill front.dest = some d)
      (hpipes : (c.computePipeline ++ c.vectorPipeline).Perm (front :: (compute ++ vector))) :
      Finishes c (setInstFinished front.myTile
        { d with computePipeline := compute, vectorPipeline := vector })

theorem finishes_compute {clock : Clock} (hc : c.finishComputePipeline clock = some c') :
    Finishes c c' := by
  unfold finishComputePipeline at hc
  split at hc
  · cases hc
    exact .nothing
  · next front rest hpipe =>
      split at hc
      · obtain ⟨d, hfill, rfl⟩ := Option.map_eq_some_iff.mp hc
        obtain ⟨_, _, _, hput⟩ := put_of_fill hfill
        obtain ⟨spad, accSpad, rfl⟩ := hput.rest
        refine .done front rest c.vectorPipeline _ hfill ?_
        rw [hpipe]
        exact .refl _
      · cases hc
        exact .nothing

theorem finishes_vector {clock : Clock} (hc : c.finishVectorPipeline clock = some c') :
    Finishes c c' := by
  unfold finishVectorPipeline at hc
  split at hc
  · cases hc
    exact .nothing
  · next front rest hpipe =>
      split at hc
      · obtain ⟨d, hfill, rfl⟩ := Option.map_eq_some_iff.mp hc
        obtain ⟨_, _, _, hput⟩ := put_of_fill hfill
        obtain ⟨spad, accSpad, rfl⟩ := hput.rest
        refine .done front c.computePipeline rest _ hfill ?_
        rw [hpipe]
        exact List.perm_middle
      · cases hc
        exact .nothing

/-- **A pipeline is done** with an instruction. -/
theorem Served.finish (h : Served later loads c) (hc : Finishes c c') : Served later loads c' := by
  cases hc with
  | nothing => exact h
  | done front compute vector d hfill hpipes =>
      obtain ⟨_, _, _, hput⟩ := put_of_fill hfill
      obtain ⟨spad, accSpad, rfl⟩ := hput.rest
      refine h.fill hfill rfl (setInstFinished_programs _ _) rfl rfl ?_ fun _ hmem => hmem
      exact ((hpipes.map Issued.dest).append_left loads).trans List.perm_middle

/-- **A load goes out**: its requests are on their way, and no load is left in the queue. -/
theorem Served.load (h : Served later loads c) {dramReqSize : Nat}
    {new : List (SpadSlot × MemoryAccess)}
    (hc : c.handleLdInstQueue dramReqSize = some (c', new)) :
    Served later (loads ++ new.map Prod.fst) c' ∧ c'.ldInstQueue = [] := by
  unfold handleLdInstQueue at hc
  split at hc
  · next hempty =>
      cases hc
      rw [List.map_nil, List.append_nil]
      exact ⟨h, hempty⟩
  · next front rest hqueue =>
      obtain ⟨d, hd, heq⟩ := Option.map_eq_some_iff.mp hc
      cases heq
      have hrest : rest = [] := by
        have hlen := h.single
        rw [hqueue] at hlen
        exact List.length_eq_zero_iff.mp (Nat.le_zero.mp (Nat.le_of_succ_le_succ hlen))
      subst hrest
      have hfront : front ∈ c.ldInstQueue := hqueue ▸ List.mem_cons_self
      obtain ⟨hop, _, hread⟩ := h.waiting front hfront
      have hsize := (h.queued front (List.mem_append_left _ hfront)).1 hop
      have hcovers := h.covers.allocate hd (Nat.le_of_eq hsize)
      obtain ⟨_, hput⟩ := put_of_prefetch hd
      obtain ⟨spad, accSpad, rfl⟩ := hput.rest
      have hnew : ((requests dramReqSize false front.inst).map fun access =>
          (front.dest, access)).map Prod.fst =
            List.replicate front.inst.srcAddrs.length front.dest := by
        rw [List.map_map, requests, List.map_map]
        exact List.map_const' ..
      refine ⟨h.carry rfl (List.nil_sublist _) (List.Sublist.refl _) (fun slot' hnone => ?_)
        (fun _ hmem => by cases hmem) ?_ fun slot' hmem => ?_, rfl⟩
      · exact hput.free hnone
      · rw [hnew]
        refine hcovers.congr rfl ?_
        rw [← List.append_assoc]
        exact List.perm_append_comm.append_right _
      · rcases List.mem_append.mp hmem with hmem | hmem
        · exact h.loaded slot' hmem
        · rw [hnew] at hmem
          rw [List.eq_of_mem_replicate hmem]
          exact hread

theorem put_of_allocate {front : Issued} (hd : c.allocate front = some d) :
    ∃ e, Put front.dest e c d := by
  unfold allocate at hd
  split at hd
  · obtain ⟨_, _, hput⟩ := put_of_countUp hd
    exact ⟨_, hput⟩
  · exact ⟨_, (put_of_prefetch hd).2⟩

/-- **A computation starts**, whose slot is allocated. No load is in the queue, whose slot it could
    take. -/
theorem Served.start (h : Served later loads c) (hld : c.ldInstQueue = []) {front : Issued}
    {rest compute vector : List Issued} (hqueue : c.exInstQueue = front :: rest)
    (hd : c.allocate front = some d)
    (hpipes : (front :: (c.computePipeline ++ c.vectorPipeline)).Perm (compute ++ vector)) :
    Served later loads
      { d with computePipeline := compute, vectorPipeline := vector, exInstQueue := rest } := by
  have hfront : front.inst.Counted :=
    h.queued front (List.mem_append_right _ (hqueue ▸ List.mem_cons_self))
  have hcovers : d.Covers (front.dest :: (loads ++ c.computing)) := by
    unfold SystolicCore.allocate at hd
    split at hd
    · exact h.covers.count hd
    · refine h.covers.allocate (n := 1) hd ?_
      split
      · next hzero => exact hfront.2 hzero
      · exact Nat.le_refl 1
  obtain ⟨e, hput⟩ := put_of_allocate hd
  obtain ⟨spad, accSpad, rfl⟩ := hput.rest
  have hsub : rest.Sublist c.exInstQueue := hqueue ▸ List.sublist_cons_self front rest
  refine h.carry rfl (List.Sublist.refl _) hsub (fun _ hnone => hput.free hnone)
    (fun _ hmem => ?_) (hcovers.congr rfl ?_) h.loaded
  · rw [hld] at hmem
    cases hmem
  · exact ((hpipes.map Issued.dest).append_left loads).symm.trans List.perm_middle

theorem Served.execute (h : Served later loads c) (hld : c.ldInstQueue = [])
    (hc : c.execute = some c') : Served later loads c' ∧ c'.ldInstQueue = [] := by
  unfold SystolicCore.execute at hc
  split at hc
  · cases hc
    exact ⟨h, hld⟩
  · next front rest hqueue =>
      split at hc
      swap
      · cases hc
        exact ⟨h, hld⟩
      obtain ⟨d, hd, heq⟩ := Option.map_eq_some_iff.mp hc
      obtain ⟨e, hput⟩ := put_of_allocate hd
      obtain ⟨spad, accSpad, rfl⟩ := hput.rest
      split at heq
      · subst heq
        refine ⟨h.start hld hqueue hd ?_, hld⟩
        rw [List.append_assoc]
        exact List.perm_middle.symm
      · subst heq
        refine ⟨h.start hld hqueue hd ?_, hld⟩
        rw [← List.append_assoc]
        exact (List.perm_append_singleton _ _).symm

/-- A store goes out, or is lost. -/
theorem Served.store (h : Served later loads c) (hld : c.ldInstQueue = []) {dramReqSize : Nat}
    {stores : List MemoryAccess} (hc : c.handleStInstQueue dramReqSize = some (c', stores)) :
    Served later loads c' ∧ c'.ldInstQueue = [] := by
  have hwait : ∀ front ∈ c.ldInstQueue, c.entry front.dest = none := by
    intro front hmem
    rw [hld] at hmem
    cases hmem
  unfold handleStInstQueue at hc
  split at hc
  · cases hc
    exact ⟨h, hld⟩
  · cases hc
  · split at hc
    · cases hc
      exact ⟨h.carry (setInstFinished_programs _ _) (List.Sublist.refl _) (List.Sublist.refl _)
        (fun _ hnone => hnone) hwait (h.covers.congr rfl (.refl _)) h.loaded, hld⟩
    · cases hc
      exact ⟨h.carry rfl (List.Sublist.refl _) (List.Sublist.refl _) (fun _ hnone => hnone) hwait
        (h.covers.congr rfl (.refl _)) h.loaded, hld⟩

/-! ## 3. An instruction is issued -/

/-- What the loop over the tiles comes to: nothing, or the first instruction of a tile is in a
    queue. -/
inductive Issues (c : SystolicCore) : SystolicCore → Prop where
  | nothing : Issues c c
  /-- A load; its slot is free. -/
  | load (i : Nat) (t : RunningTile) (inst : Instruction) (rest : List Instruction)
      (ht : c.tiles[i]? = some t) (hp : t.instructions = inst :: rest) (hop : inst.opcode = .movin)
      (hfree : c.entry (t.issued inst rest).dest = none) :
      Issues c ({ c with ldInstQueue := c.ldInstQueue ++ [t.issued inst rest] }.enqueued i)
  /-- A store or a computation; what it reads is there. -/
  | reader (i : Nat) (t : RunningTile) (inst : Instruction) (rest : List Instruction)
      (st : List (Option Issued)) (ex : List Issued) (ht : c.tiles[i]? = some t)
      (hp : t.instructions = inst :: rest)
      (hex : ∀ front ∈ ex, front ∈ c.exInstQueue ∨ front.inst = inst)
      (hhit : ∀ a ∈ inst.reads, c.checkHit (t.program.slot a) = true) :
      Issues c ({ c with stInstQueue := st, exInstQueue := ex }.enqueued i)

theorem issues_issueFirst {i : Nat} {t : RunningTile} (ht : c.tiles[i]? = some t)
    (hc : c.issueFirst i t = some (c', true)) : Issues c c' := by
  unfold issueFirst at hc
  split at hc
  · cases hc
  · next inst rest hp =>
      dsimp only at hc
      split at hc
      · next hop =>
          split at hc
          · next hfree =>
              cases hc
              rw [Bool.and_eq_true, Bool.not_eq_true', checkAllocated_eq,
                Option.isSome_eq_false_iff, Option.isNone_iff_eq_none] at hfree
              exact .load i t inst rest ht hp hop hfree.1
          · cases hc
      · next hop =>
          split at hc
          · next hhit =>
              cases hc
              refine .reader i t inst rest _ _ ht hp (fun _ hmem => .inl hmem) fun a ha => ?_
              rw [Instruction.reads, hop] at ha
              rw [List.mem_singleton.mp ha]
              exact hhit
          · cases hc
      · next hop =>
          split at hc
          · next hhit =>
              cases hc
              refine .reader i t inst rest _ _ ht hp (fun _ hmem => .inl hmem) fun a ha => ?_
              rw [Instruction.reads, hop] at ha
              rw [List.mem_singleton.mp ha]
              exact hhit
          · cases hc
      · next hin hout hpool =>
          split at hc
          · next hhit =>
              cases hc
              rw [Bool.and_eq_true, canIssueCompute, Bool.and_eq_true] at hhit
              refine .reader i t inst rest _ _ ht hp (fun front hmem => ?_) fun a ha => ?_
              · refine (List.mem_append.mp hmem).imp_right fun hnew => ?_
                rw [List.mem_singleton.mp hnew]
                rfl
              · have hsources : inst.reads = inst.sources := by
                  unfold Instruction.reads
                  split
                  · next hop => exact absurd hop hin
                  · next hop => exact absurd hop hout
                  · next hop => exact absurd hop hpool
                  · rfl
                rw [hsources] at ha
                exact List.all_eq_true.mp hhit.2.1 _ (List.mem_map_of_mem ha)
          · cases hc

theorem issues_issueLoop : ∀ (is : List Nat), c.issueLoop is = some c' → Issues c c' := by
  intro is
  induction is with
  | nil =>
      intro hc
      cases hc
      exact .nothing
  | cons i is ih =>
      intro hc
      unfold issueLoop at hc
      split at hc
      · cases hc
      · next t ht =>
          split at hc
          · cases hc
          · next hfirst =>
              cases hc
              exact issues_issueFirst ht hfirst
          · exact ih hc

/-- The programs after the first instruction of a tile has gone. -/
theorem mem_programs_enqueued {i : Nat} {t : RunningTile} {inst : Instruction}
    {rest : List Instruction} (ht : c.tiles[i]? = some t) (hp : t.instructions = inst :: rest) :
    (∀ p ∈ (c.enqueued i).programs,
        p ∈ c.programs ∨ p = ⟨rest, t.spadId, t.accumSpadId⟩) ∧
      (∀ p ∈ c.programs, p ∈ (c.enqueued i).programs ∨ p = t.program) ∧
      ⟨rest, t.spadId, t.accumSpadId⟩ ∈ (c.enqueued i).programs := by
  have hpopped : RunningTile.program { t with instructions := t.instructions.tail } =
      ⟨rest, t.spadId, t.accumSpadId⟩ := by
    rw [hp]
    rfl
  have hat : ∀ j, (c.enqueued i).programs[j]? =
      if i = j then some ⟨rest, t.spadId, t.accumSpadId⟩ else c.programs[j]? := by
    intro j
    unfold programs enqueued
    rw [List.getElem?_map, List.getElem?_modify, List.getElem?_map]
    split
    · next heq =>
        rw [← heq, ht]
        exact congrArg some hpopped
    · cases c.tiles[j]? <;> rfl
  refine ⟨fun p hmem => ?_, fun p hmem => ?_, ?_⟩
  · obtain ⟨j, hj⟩ := List.mem_iff_getElem?.mp hmem
    rw [hat] at hj
    split at hj
    · exact .inr (Option.some.inj hj).symm
    · exact .inl (List.mem_of_getElem? hj)
  · obtain ⟨j, hj⟩ := List.mem_iff_getElem?.mp hmem
    by_cases hij : i = j
    · subst hij
      unfold programs at hj
      rw [List.getElem?_map, ht] at hj
      exact .inr (Option.some.inj hj).symm
    · refine .inl (List.mem_of_getElem? (i := j) ?_)
      rw [hat, if_neg hij, hj]
  · refine List.mem_of_getElem? (i := i) ?_
    rw [hat, if_pos rfl]

/-- **A reader stays**, of a slot that is not hit: its instruction is not the one that was issued. -/
theorem Read.stays {i : Nat} {t : RunningTile} {inst : Instruction} {rest : List Instruction}
    (ht : c.tiles[i]? = some t) (hp : t.instructions = inst :: rest)
    (hc : c'.programs = (c.enqueued i).programs)
    (hhit : ∀ a ∈ inst.reads, c.checkHit (t.program.slot a) = true) (h : Read later c slot)
    (hmiss : c.checkHit slot = false) : Read later c' slot := by
  obtain ⟨_, hold, hnew⟩ := mem_programs_enqueued ht hp
  unfold Read
  rw [hc]
  refine h.imp_left ?_
  rintro ⟨p, hmem, r, hr, a, ha, hslot⟩
  rcases hold p hmem with hmem | rfl
  · exact ⟨p, hmem, r, hr, a, ha, hslot⟩
  · have hr : r ∈ t.instructions := hr
    rw [hp] at hr
    rcases List.mem_cons.mp hr with rfl | hr
    · have hhit := hhit a ha
      rw [hslot, hmiss] at hhit
      cases hhit
    · exact ⟨_, hnew, r, hr, a, ha, hslot⟩

/-- The programs of the tiles, after an instruction was issued. -/
theorem Served.supplies_enqueued (h : Served later loads c) {i : Nat} {t : RunningTile}
    {inst : Instruction} {rest : List Instruction} (ht : c.tiles[i]? = some t)
    (hp : t.instructions = inst :: rest) (hc : d.programs = (c.enqueued i).programs)
    (hentry : d.entry = c.entry)
    (hhit : ∀ a ∈ inst.reads, c.checkHit (t.program.slot a) = true) :
    ∀ p ∈ d.programs, (∀ r ∈ p.instructions, r.Counted) ∧ Supplies later d p := by
  have hmem : t.program ∈ c.programs := List.mem_map_of_mem (List.mem_of_getElem? ht)
  have hstays : ∀ slot, (c.entry slot = none → Read later c slot) →
      d.entry slot = none → Read later d slot := by
    intro slot hread hnone
    rw [hentry] at hnone
    refine (hread hnone).stays ht hp hc hhit ?_
    rw [checkHit_eq, hnone]
    rfl
  intro p hmem'
  rw [hc] at hmem'
  rcases (mem_programs_enqueued ht hp).1 p hmem' with hmem' | rfl
  · exact ⟨h.counted p hmem', (h.supplies p hmem').imp fun r after hsupply hop =>
      (hsupply hop).imp_right (hstays _)⟩
  · refine ⟨fun r hr => h.counted _ hmem r ?_, ?_⟩
    · show r ∈ t.instructions
      rw [hp]
      exact List.mem_cons_of_mem _ hr
    · have hall := h.supplies _ hmem
      unfold Supplies RunningTile.program at hall
      rw [hp] at hall
      exact hall.2.imp fun r after hsupply hop => (hsupply hop).imp_right (hstays _)

/-- **An instruction is issued.** -/
theorem Served.issueInst (h : Served later loads c) (hld : c.ldInstQueue = [])
    (hc : c.issueInst = some c') : Served later loads c' := by
  have hmiss : ∀ slot ∈ loads, c.checkHit slot = false := fun slot hmem => by
    by_contra hhit
    exact h.covers.not_mem_of_hit (Bool.of_not_eq_false hhit) (List.mem_append_left _ hmem)
  cases issues_issueLoop _ hc with
  | nothing => exact h
  | load i t inst rest ht hp hop hfree =>
      have hhit : ∀ a ∈ inst.reads, c.checkHit (t.program.slot a) = true := fun a ha => by
        rw [Instruction.reads, hop] at ha
        cases ha
      have hmem : t.program ∈ c.programs := List.mem_map_of_mem (List.mem_of_getElem? ht)
      obtain ⟨_, _, hnew⟩ := mem_programs_enqueued ht hp
      have hprograms := h.supplies_enqueued ht hp
        (d := { c with ldInstQueue := c.ldInstQueue ++ [t.issued inst rest] }.enqueued i)
        rfl rfl hhit
      have hqueue : ∀ front ∈ c.ldInstQueue ++ [t.issued inst rest],
          front = t.issued inst rest := by
        rw [hld]
        exact fun front hfront => List.mem_singleton.mp hfront
      exact
        { covers := h.covers.congr rfl (.refl _)
          counted := fun p hp => (hprograms p hp).1
          queued := fun front hfront => by
            rcases List.mem_append.mp hfront with hfront | hfront
            · rw [hqueue front hfront]
              exact h.counted _ hmem inst (by
                show inst ∈ t.instructions
                rw [hp]
                exact List.mem_cons_self)
            · exact h.queued front (List.mem_append_right _ hfront)
          single := by
            show (c.ldInstQueue ++ [t.issued inst rest]).length ≤ 1
            rw [hld]
            exact Nat.le_refl 1
          waiting := fun front hfront => by
            rw [hqueue front hfront]
            refine ⟨hop, hfree, ?_⟩
            have hall := h.supplies _ hmem
            unfold Supplies RunningTile.program at hall
            rw [hp] at hall
            rcases hall.1 hop with ⟨r, hr, hdest⟩ | hread
            · exact .inl ⟨_, hnew, r, hr, _, hdest, rfl⟩
            · refine (hread hfree).stays ht hp rfl hhit ?_
              rw [checkHit_eq]
              exact congrArg (Option.any _) hfree
          loaded := fun slot hslot =>
            (h.loaded slot hslot).stays ht hp rfl hhit (hmiss slot hslot)
          supplies := fun p hp => (hprograms p hp).2 }
  | reader i t inst rest st ex ht hp hex hhit =>
      have hmem : t.program ∈ c.programs := List.mem_map_of_mem (List.mem_of_getElem? ht)
      have hprograms := h.supplies_enqueued ht hp
        (d := { c with stInstQueue := st, exInstQueue := ex }.enqueued i) rfl rfl hhit
      exact
        { covers := h.covers.congr rfl (.refl _)
          counted := fun p hp => (hprograms p hp).1
          queued := fun front hfront => by
            rcases List.mem_append.mp hfront with hfront | hfront
            · exact h.queued front (List.mem_append_left _ hfront)
            · rcases hex front hfront with hfront | hinst
              · exact h.queued front (List.mem_append_right _ hfront)
              · rw [hinst]
                exact h.counted _ hmem inst (by
                  show inst ∈ t.instructions
                  rw [hp]
                  exact List.mem_cons_self)
          single := h.single
          waiting := fun front hfront => by
            have hnil : front ∈ c.ldInstQueue := hfront
            rw [hld] at hnil
            cases hnil
          loaded := fun slot hslot =>
            (h.loaded slot hslot).stays ht hp rfl hhit (hmiss slot hslot)
          supplies := fun p hp => (hprograms p hp).2 }

/-! ## 4. A cycle -/

/-- The parts of a cycle, one after the other. -/
theorem cycle_parts {dramReqSize : Nat} {clock : Clock} {new : List (SpadSlot × MemoryAccess)}
    {stores : List MemoryAccess} (hc : c.cycle dramReqSize clock = some (c', new, stores)) :
    ∃ c₁ c₂ c₃ c₄ c₅ c₆, c.finishComputePipeline clock = some c₁ ∧
      c₁.finishVectorPipeline clock = some c₂ ∧
      c₂.handleLdInstQueue dramReqSize = some (c₃, new) ∧ c₃.execute = some c₄ ∧
      c₄.handleStInstQueue dramReqSize = some (c₅, stores) ∧ c₅.issueInst = some c₆ ∧
      c' = c₆.finishTile := by
  unfold SystolicCore.cycle at hc
  obtain ⟨c₁, h₁, hc⟩ := Option.bind_eq_some_iff.mp hc
  obtain ⟨c₂, h₂, hc⟩ := Option.bind_eq_some_iff.mp hc
  obtain ⟨⟨c₃, new'⟩, h₃, hc⟩ := Option.bind_eq_some_iff.mp hc
  obtain ⟨c₄, h₄, hc⟩ := Option.bind_eq_some_iff.mp hc
  obtain ⟨⟨c₅, stores'⟩, h₅, hc⟩ := Option.bind_eq_some_iff.mp hc
  obtain ⟨c₆, h₆, heq⟩ := Option.map_eq_some_iff.mp hc
  cases heq
  exact ⟨c₁, c₂, c₃, c₄, c₅, c₆, h₁, h₂, h₃, h₄, h₅, h₆, rfl⟩

/-- A tile is finished: nothing is left of its program. -/
theorem Served.finishTile (h : Served later loads c) : Served later loads c.finishTile := by
  unfold SystolicCore.finishTile
  split
  · exact h
  · next t ht =>
      have hempty : t.instructions = [] := by
        have hdone := List.find?_some ht
        rw [Bool.and_eq_true, List.isEmpty_iff] at hdone
        exact hdone.1
      refine h.keep (fun p hp => ?_) (fun slot hread => ?_) (List.Sublist.refl _)
        (List.Sublist.refl _) (fun _ hnone => hnone)
        (fun front hfront => (h.waiting front hfront).2.1)
        (h.covers.congr rfl (.refl _)) h.loaded
      · exact List.map_subset _ List.erase_subset hp
      · refine hread.imp_left ?_
        rintro ⟨p, hp, r, hr, a, ha, hslot⟩
        obtain ⟨u, hu, rfl⟩ := List.mem_map.mp hp
        refine ⟨_, List.mem_map_of_mem ((List.mem_erase_of_ne ?_).mpr hu), r, hr, a, ha, hslot⟩
        rintro rfl
        have hr : r ∈ u.instructions := hr
        rw [hempty] at hr
        cases hr

/-- **A cycle of a core.** -/
theorem Served.cycle (h : Served later loads c) {dramReqSize : Nat} {clock : Clock}
    {new : List (SpadSlot × MemoryAccess)} {stores : List MemoryAccess}
    (hc : c.cycle dramReqSize clock = some (c', new, stores)) :
    Served later (loads ++ new.map Prod.fst) c' := by
  obtain ⟨c₁, c₂, c₃, c₄, c₅, c₆, h₁, h₂, h₃, h₄, h₅, h₆, rfl⟩ := cycle_parts hc
  obtain ⟨hload, hld⟩ := ((h.finish (finishes_compute h₁)).finish (finishes_vector h₂)).load h₃
  obtain ⟨hexecute, hld⟩ := hload.execute hld h₄
  obtain ⟨hstore, hld⟩ := hexecute.store hld h₅
  exact (hstore.issueInst hld h₆).finishTile

/-! ## 5. A tile is issued -/

/-- The program of a tile in the buffers that it is given. -/
def programFor (tile : Tile) (c : SystolicCore) : Program :=
  ⟨tile.work.instructions, (c.buffersFor tile).1, (c.buffersFor tile).2⟩

/-- The slot is in a buffer that is emptied for the tile. -/
def empties (tile : Tile) (c : SystolicCore) (slot : SpadSlot) : Bool :=
  if slot.accum then !c.continues tile && slot.bufferId == (c.buffersFor tile).2
  else slot.bufferId == (c.buffersFor tile).1

section Issue

variable (tile : Tile) (c : SystolicCore)

theorem issue_spad : (c.issue tile).spad = c.spad.flush (c.buffersFor tile).1 := by
  unfold issue
  dsimp only
  split <;> rfl

theorem issue_accSpad : (c.issue tile).accSpad =
    if c.continues tile then c.accSpad else c.accSpad.flush (c.buffersFor tile).2 := by
  unfold issue
  dsimp only
  split <;> rfl

theorem issue_programs : (c.issue tile).programs =
    c.programs ++ if tile.work.skip then [] else [c.programFor tile] := by
  unfold issue programs
  dsimp only
  split
  · rw [List.append_nil]
  · exact List.map_append

theorem issue_queues : (c.issue tile).ldInstQueue = c.ldInstQueue ∧
    (c.issue tile).exInstQueue = c.exInstQueue ∧ (c.issue tile).computing = c.computing := by
  unfold issue computing
  dsimp only
  split <;> exact ⟨rfl, rfl, rfl⟩

theorem entry_flush (s : Sram) (bufferId bufferId' address : Nat) :
    ((s.flush bufferId).cacheTable bufferId')[address]? =
      if bufferId' = bufferId then none else (s.cacheTable bufferId')[address]? := by
  unfold Sram.flush
  dsimp only
  rw [Function.update_apply]
  split
  · exact OrderedMap.lookup_empty _
  · rfl

theorem entry_issue (slot : SpadSlot) :
    (c.issue tile).entry slot = if c.empties tile slot then none else c.entry slot := by
  unfold entry sram empties
  rw [issue_spad, issue_accSpad]
  cases slot.accum with
  | false =>
      simp only [Bool.false_eq_true, if_false, beq_iff_eq]
      exact entry_flush _ _ _ _
  | true =>
      cases c.continues tile with
      | true => simp
      | false =>
          simp only [if_true, Bool.false_eq_true, if_false, Bool.not_false, Bool.true_and,
            beq_iff_eq]
          exact entry_flush _ _ _ _

end Issue

theorem valid_of_filling {s : Sram} {bufferId address : Nat} {e : SramEntry}
    (h : s.filling bufferId = []) (he : (s.cacheTable bufferId)[address]? = some e) :
    e.valid = true := by
  unfold Sram.filling at h
  rw [List.map_eq_nil_iff, List.filter_eq_nil_iff] at h
  have hmem : (address, e) ∈ (s.cacheTable bufferId).toList :=
    Std.TreeMap.mem_toList_iff_getElem?_eq_some.mpr he
  simpa using h _ hmem

/-- The buffers of the tiles that run are not emptied. -/
theorem empties_running (hroom : c.canIssue = true) {tile : Tile} {p : Program}
    (hp : p ∈ c.programs) (a : SpadAddress) : c.empties tile (p.slot a) = false := by
  obtain ⟨t, ht, rfl⟩ := List.mem_map.mp hp
  have hsingle : c.tiles = [t] := by
    have hlen := of_decide_eq_true hroom
    cases hq : c.tiles with
    | nil =>
        rw [hq] at ht
        cases ht
    | cons first rest =>
        rw [hq] at ht hlen
        have hrest : rest = [] := by
          rw [List.length_cons] at hlen
          exact List.length_eq_zero_iff.mp (by omega)
        rw [hrest] at ht ⊢
        rw [List.mem_singleton.mp ht]
  unfold empties Program.slot SpadAddress.slot buffersFor currentBuffers RunningTile.program
  rw [hsingle]
  cases a.accum with
  | false =>
      simp only [Bool.false_eq_true, if_false, beq_eq_false_iff_ne, ne_eq]
      omega
  | true =>
      cases c.continues tile with
      | true => rfl
      | false =>
          simp only [if_true, Bool.false_eq_true, if_false, Bool.not_false, Bool.true_and,
            beq_eq_false_iff_ne, ne_eq]
          omega

section Emptied

variable {tile : Tile} (hspad : c.spad.filling (c.buffersFor tile).1 = [])
  (haccum : c.continues tile = false → c.accSpad.filling (c.buffersFor tile).2 = [])
include hspad haccum

/-- What is in the emptied buffers waits for no fill. -/
theorem valid_of_empties {e : SramEntry} (hempties : c.empties tile slot = true)
    (he : c.entry slot = some e) : e.valid = true := by
  unfold empties at hempties
  unfold entry sram at he
  split at hempties
  · next hslot =>
      rw [Bool.and_eq_true, Bool.not_eq_true', beq_iff_eq] at hempties
      rw [if_pos hslot, hempties.2] at he
      exact valid_of_filling (haccum hempties.1) he
  · next hslot =>
      rw [beq_iff_eq] at hempties
      rw [if_neg hslot, hempties] at he
      exact valid_of_filling hspad he

/-- So no fill to come is for one of them. -/
theorem Covers.issue {pending : List SpadSlot} (h : c.Covers pending) :
    (c.issue tile).Covers pending where
  waits slot := by
    rw [entry_issue]
    have hle := h.waits slot
    cases hempties : c.empties tile slot with
    | false => exact hle
    | true =>
        cases he : c.entry slot with
        | none =>
            rw [he] at hle
            exact hle
        | some e =>
            have hvalid := valid_of_empties hspad haccum hempties he
            rw [he, Option.map_some, Option.getD_some, h.valid slot e he hvalid] at hle
            exact hle
  valid slot e he := by
    rw [entry_issue] at he
    split at he
    · cases he
    · exact h.valid slot e he

end Emptied

/-- **A tile is issued.** The buffers that are emptied are not being filled; what was to be read by
    a tile to come is so still, or by this tile; and the loads of the tile are read. -/
theorem Served.issue (h : Served later loads c) {tile : Tile} (hroom : c.canIssue = true)
    (hspad : c.spad.filling (c.buffersFor tile).1 = [])
    (haccum : c.continues tile = false → c.accSpad.filling (c.buffersFor tile).2 = [])
    (hlater : ∀ slot, later slot → later' slot ∨
      (tile.work.skip = false ∧ (c.programFor tile).Reads slot))
    (hcounted : tile.work.skip = false → ∀ inst ∈ tile.work.instructions, inst.Counted)
    (hsupplies : tile.work.skip = false → Along (fun inst after => inst.opcode = .movin →
      (∃ r ∈ after, inst.dest ∈ r.reads) ∨ later' ((c.programFor tile).slot inst.dest))
        tile.work.instructions) :
    Served later' loads (c.issue tile) := by
  obtain ⟨hld, hex, hpipes⟩ := issue_queues tile c
  have hread : ∀ slot, Read later c slot → Read later' (c.issue tile) slot := by
    intro slot hread
    unfold Read
    rw [issue_programs]
    rcases hread with ⟨p, hp, hslot⟩ | hslot
    · exact .inl ⟨p, List.mem_append_left _ hp, hslot⟩
    · rcases hlater slot hslot with hslot | ⟨hskip, hslot⟩
      · exact .inr hslot
      · rw [hskip]
        exact .inl ⟨_, List.mem_append_right _ List.mem_cons_self, hslot⟩
  have hprograms : ∀ p ∈ (c.issue tile).programs,
      p ∈ c.programs ∨ (tile.work.skip = false ∧ p = c.programFor tile) := by
    intro p hp
    rw [issue_programs] at hp
    refine (List.mem_append.mp hp).imp_right fun hp => ?_
    cases hskip : tile.work.skip with
    | true =>
        rw [hskip] at hp
        cases hp
    | false =>
        rw [hskip] at hp
        exact ⟨rfl, List.mem_singleton.mp hp⟩
  exact
    { covers := (h.covers.issue hspad haccum).congr rfl (hpipes ▸ .refl _)
      counted := fun p hp => by
        rcases hprograms p hp with hp | ⟨hskip, rfl⟩
        · exact h.counted p hp
        · exact hcounted hskip
      queued := fun front hmem => by
        rw [hld, hex] at hmem
        exact h.queued front hmem
      single := by
        rw [hld]
        exact h.single
      waiting := fun front hmem => by
        rw [hld] at hmem
        obtain ⟨hop, hfree, hslot⟩ := h.waiting front hmem
        refine ⟨hop, ?_, hread _ hslot⟩
        rw [entry_issue, hfree, ite_self]
      loaded := fun slot hmem => hread slot (h.loaded slot hmem)
      supplies := fun p hp => by
        rcases hprograms p hp with hp | ⟨hskip, rfl⟩
        · refine (h.supplies p hp).imp fun inst after hsupply hop =>
            (hsupply hop).imp_right fun hslot hnone => ?_
          rw [entry_issue, empties_running hroom hp, if_neg Bool.false_ne_true] at hnone
          exact hread _ (hslot hnone)
        · exact (hsupplies hskip).imp fun inst after hsupply hop =>
            (hsupply hop).imp_right fun hslot _ => .inr hslot }

/-- More is read later. -/
theorem Served.mono (h : Served later loads c) (hlater : ∀ slot, later slot → later' slot) :
    Served later' loads c :=
  h.keep (fun _ hp => hp) (fun slot hread => hread.imp_right (hlater slot)) (List.Sublist.refl _)
    (List.Sublist.refl _) (fun _ hnone => hnone) (fun front hmem => (h.waiting front hmem).2.1)
    h.covers h.loaded

end SystolicCore

end Ahasd.Npu
