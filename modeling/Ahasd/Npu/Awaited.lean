/-
  File:      Ahasd/Npu/Awaited.lean
  Subject:   A LOAD THAT IS ON ITS WAY IS WAITED FOR.

  Its reader is a tile that runs, or one that the scheduler still has: the bias of an accumulation is
  loaded by its first tile and read by its last one. This needs that the tiles of an accumulation
  share an accumulator buffer, which `Core::issue` does not see to.

  * `LoadsRead`: of the tiles of an operation, what they load is read;
  * `Continues`: a tile goes on where its accumulation is;
  * `Orderly`: the condition on a history;
  * `Ahead`: a tile that no core has got yet; `Later`: what such tiles will read;
    `Books.queue_of_ahead`: while there is one, the scheduler is not empty;
  * **`Setup.served`**: in an orderly run every load is read.
-/
import Ahasd.Npu.Loads

namespace Ahasd.Npu

open Transition

/-! ## 1. The condition -/

/-- Two tiles for the same part of the output of an operation. -/
def SameAccumulation (a b : Tile) : Prop :=
  a.layerId = b.layerId ∧ a.work.fusedOpId = b.work.fusedOpId ∧ a.work.batch = b.work.batch ∧
    a.work.q = b.work.q ∧ a.work.p = b.work.p ∧ a.work.m = b.work.m

/-- **What the tile loads is read**: later in its program; or, what the first tile of an accumulation
    loads for the accumulator, in a tile that goes on with it. -/
def LoadsRead (tiles : List Tile) (tile : Tile) : Prop :=
  (∀ inst ∈ tile.work.instructions, inst.Counted) ∧
    Along (fun inst after => inst.opcode = .movin →
      (∃ r ∈ after, inst.dest ∈ r.reads) ∨
        (tile.work.accum = false ∧ inst.dest.accum = true ∧
          ∃ next ∈ tiles, next.work.accum = true ∧ next.work.skip = false ∧
            next.status = .initialized ∧ SameAccumulation tile next ∧
              ∃ r ∈ next.work.instructions, inst.dest ∈ r.reads)) tile.work.instructions

/-- It holds of the tiles of a model. -/
def ModelLoadsRead (model : OperationGraph TileWork) : Prop :=
  ∀ op ∈ model.operationMap, ∀ tile ∈ op.tiles, tile.work.skip = false → LoadsRead op.tiles tile

/-- **A tile goes on where its accumulation is**: on the core and in the accumulator buffer of the
    tiles before it; and it is no first tile that comes after one that goes on. -/
def Continues (before after : Placement) : Prop :=
  SameAccumulation before.tile after.tile →
    if after.tile.work.accum = true then
      before.coreId = after.coreId ∧ before.accumSpadId = after.accumSpadId
    else before.tile.work.accum = false

/-- No buffer is emptied that is still being filled. -/
def Event.Clean : Event → Prop
  | .emptied _ _ _ filling => filling = []
  | _ => True

/-- **The condition**: what is loaded is read, the tiles of an accumulation go on where it is, and no
    buffer is emptied that is still being filled. -/
structure Orderly (h : List Event) : Prop where
  loads : ∀ model ∈ scheduled (tileEvents h), ModelLoadsRead model
  continues : (placements h).Pairwise Continues
  clean : ∀ v ∈ h, v.Clean

theorem Orderly.before {h e : List Event} (ho : Orderly (h ++ e)) : Orderly h where
  loads model hmem := ho.loads model (by
    rw [tileEvents_append, scheduled_append]
    exact List.mem_append_left _ hmem)
  continues := by
    have hall := ho.continues
    rw [placements_append] at hall
    exact (List.pairwise_append.mp hall).1
  clean v hv := ho.clean v (List.mem_append_left _ hv)

/-! ## 2. Tiles that no core has got yet -/

/-- A tile of a layer that was started, and that no core has got. -/
def Ahead (h : List (TileEvent TileWork)) (tile : Tile) : Prop :=
  (∃ model ∈ scheduled h, tile ∈ model.getTiles tile.layerId) ∧
    tile.layerId ∈ layersStarted h ∧ tile.status = .initialized ∧
      ∀ core launched, .launched core launched ∈ h → launched.identity ≠ tile.identity

section Scheduler

variable {c : Setup} {s : System} {h : List Event} {tile : Tile}

theorem mem_ids_of_getTiles {model : OperationGraph TileWork} {layer : Nat}
    (ht : tile ∈ model.getTiles layer) :
    layer ∈ model.ids ∧ ∃ op ∈ model.operationMap, op.tiles = model.getTiles layer := by
  rw [OperationGraph.getTiles] at ht ⊢
  cases hop : model.getOperation layer with
  | none =>
      rw [hop] at ht
      cases ht
  | some op =>
      have hmem := List.mem_of_find?_eq_some hop
      have hid : op.id = layer := by simpa using List.find?_some hop
      exact ⟨hid ▸ List.mem_map_of_mem hmem, op, hmem, rfl⟩

/-- A tile that was done, and is no barrier, was launched. -/
theorem Books.launched_of_done (hb : Books c s h) {layer : Nat}
    (hdone : tile.identity ∈ tilesDone layer (tileEvents h)) (hstatus : tile.status = .initialized) :
    ∃ core launched, .launched core launched ∈ tileEvents h ∧
      launched.identity = tile.identity := by
  obtain ⟨v, hv, heq⟩ := List.mem_filterMap.mp hdone
  cases v with
  | finished core done =>
      have hid : done.identity = tile.identity := by
        dsimp only at heq
        split at heq
        · exact Option.some.inj heq
        · cases heq
      have hfinished : done ∈ finishedOn core (tileEvents h) :=
        List.mem_filterMap.mpr ⟨_, hv, if_pos rfl⟩
      have hlaunched := (hb.tiles.kept.cores core).mem_iff.mpr (List.mem_append_left _ hfinished)
      obtain ⟨w, hw, heq⟩ := List.mem_filterMap.mp hlaunched
      cases w with
      | launched core' done' =>
          dsimp only at heq
          split at heq
          · cases heq
            exact ⟨core', done, hw, hid⟩
          · cases heq
      | _ => cases heq
  | barrier bar =>
      have hid : bar.identity = tile.identity := by
        dsimp only at heq
        split at heq
        · exact Option.some.inj heq
        · cases heq
      have hbar : tile.identity.status = .bar := hid ▸ hb.bars bar hv
      rw [show tile.identity.status = tile.status from rfl, hstatus] at hbar
      cases hbar
  | _ => cases heq

/-- **While a tile is ahead, the scheduler has its model.** -/
theorem Books.queue_of_ahead (hb : Books c s h) (ha : Ahead (tileEvents h) tile) :
    s.tiles.sched.requestQueue ≠ [] := by
  obtain ⟨⟨model, hmodel, ht⟩, hstarted, hstatus, hnew⟩ := ha
  obtain ⟨hid, _⟩ := mem_ids_of_getTiles ht
  have hopen : tile.layerId ∉ layersFinished (tileEvents h) := by
    intro hfinished
    have hperm := hb.tiles.kept.account model hmodel tile.layerId hid hfinished
    obtain ⟨core, launched, hl, heq⟩ := hb.launched_of_done
      (hperm.mem_iff.mpr (List.mem_map_of_mem ht)) hstatus
    exact hnew core launched hl heq
  rcases hb.tiles.course with ⟨past, orders, hidle⟩ |
    ⟨past, orders, model₀, front, later, done, active, hw⟩
  · rw [hidle.started, ← hidle.done] at hstarted
    exact absurd hstarted hopen
  · rw [hw.queue]
    exact List.cons_ne_nil _ _

/-- A tile of the scheduler is one of a model, of a layer that was started. -/
theorem Books.of_contents (hb : Books c s h) (hmem : tile ∈ s.tiles.contents) :
    ∃ model ∈ scheduled (tileEvents h), ∃ origin ∈ model.getTiles tile.layerId,
      origin.identity = tile.identity ∧ tile.layerId ∈ layersStarted (tileEvents h) := by
  obtain ⟨past, orders, model₀, model, later, done, hw, _⟩ := hb.tiles.working hmem
  have hu := hw.underway tile.layerId rfl
  have hin : tile.identity ∈ (tilesDone tile.layerId (tileEvents h) : Multiset Tile) +
      s.tiles.contents.map ScheduledTile.identity :=
    Multiset.mem_add.mpr (.inr (Multiset.mem_map_of_mem _ hmem))
  rw [hu.tiles] at hin
  obtain ⟨origin, horigin, heq⟩ := List.mem_map.mp (Multiset.mem_coe.mp hin)
  refine ⟨model₀, ?_, origin, horigin, heq, ?_⟩
  · rw [hw.scheduled]
    exact List.mem_append_right _ List.mem_cons_self
  · exact (hw.active_open hb.tiles.kept).1

end Scheduler

/-! ## 3. What will be read later -/

/-- The slot is of an accumulator buffer, and a tile is ahead that reads it: its accumulation is on
    this core and in this buffer. -/
def Later (h : List Event) (coreId : Nat) (slot : SpadSlot) : Prop :=
  slot.accum = true ∧ ∃ tile, Ahead (tileEvents h) tile ∧ tile.work.accum = true ∧
    tile.work.skip = false ∧ (∃ r ∈ tile.work.instructions, ⟨true, slot.address⟩ ∈ r.reads) ∧
      ∃ p ∈ placements h, p.coreId = coreId ∧ p.accumSpadId = slot.bufferId ∧
        SameAccumulation p.tile tile

variable {c : Setup} {s s' : System} {h e : List Event} {tile : Tile} {coreId : Nat}

/-- A tile stays ahead, unless a core gets it. -/
theorem Ahead.append {h e : List (TileEvent TileWork)} (ha : Ahead h tile)
    (hnew : ∀ core launched, .launched core launched ∈ e → launched.identity ≠ tile.identity) :
    Ahead (h ++ e) tile := by
  obtain ⟨⟨model, hmodel, ht⟩, hstarted, hstatus, hold⟩ := ha
  refine ⟨⟨model, ?_, ht⟩, ?_, hstatus, fun core launched hl => ?_⟩
  · rw [scheduled_append]
    exact List.mem_append_left _ hmodel
  · rw [layersStarted_append]
    exact List.mem_append_left _ hstarted
  · exact (List.mem_append.mp hl).elim (hold core launched) (hnew core launched)

theorem Later.append (hl : Later h coreId slot)
    (hnone : ∀ core launched, .launched core launched ∉ tileEvents e) :
    Later (h ++ e) coreId slot := by
  obtain ⟨haccum, tile, hahead, hcontinues, hskip, hread, p, hp, hplace⟩ := hl
  refine ⟨haccum, tile, ?_, hcontinues, hskip, hread, p, ?_, hplace⟩
  · rw [tileEvents_append]
    exact hahead.append fun core launched hmem => absurd hmem (hnone core launched)
  · rw [placements_append]
    exact List.mem_append_left _ hp

theorem SameAccumulation.symm {a b : Tile} (hab : SameAccumulation a b) : SameAccumulation b a := by
  obtain ⟨h₁, h₂, h₃, h₄, h₅, h₆⟩ := hab
  exact ⟨h₁.symm, h₂.symm, h₃.symm, h₄.symm, h₅.symm, h₆.symm⟩

theorem SameAccumulation.trans {a b d : Tile} (hab : SameAccumulation a b)
    (hbd : SameAccumulation b d) : SameAccumulation a d := by
  obtain ⟨h₁, h₂, h₃, h₄, h₅, h₆⟩ := hab
  obtain ⟨k₁, k₂, k₃, k₄, k₅, k₆⟩ := hbd
  exact ⟨h₁.trans k₁, h₂.trans k₂, h₃.trans k₃, h₄.trans k₄, h₅.trans k₅, h₆.trans k₆⟩

/-- The tile is all the same, whatever core it was given to. -/
theorem SameAccumulation.of_identity {a b : Tile} (hab : a.identity = b.identity) :
    SameAccumulation a b ∧ a.work = b.work := by
  have hlayer : a.identity.layerId = b.identity.layerId := by rw [hab]
  have hwork : a.identity.work = b.identity.work := by rw [hab]
  have hlayer : a.layerId = b.layerId := hlayer
  have hwork : a.work = b.work := hwork
  exact ⟨by simp only [SameAccumulation, hlayer, hwork, and_self], hwork⟩

/-! ## 4. A tile is issued -/

/-- What a tile's issue adds to a history. -/
theorem history_of_issue {es : List (TileEvent TileWork)} (core : SystolicCore)
    (hes : es = [.launched coreId tile]) :
    tileEvents (es.map .tile ++ System.issueEvents coreId tile core) = [.launched coreId tile] ∧
      placements (es.map .tile ++ System.issueEvents coreId tile core) =
        [⟨coreId, tile, (core.buffersFor tile).1, (core.buffersFor tile).2⟩] := by
  obtain ⟨_, htiles, hplacements⟩ := System.issueEvents_shows coreId tile core
  rw [tileEvents_append, placements_append, htiles, hplacements, hes]
  exact ⟨rfl, rfl⟩

section Issue

variable {core : SystolicCore} {es : List (TileEvent TileWork)}
  (ho : Orderly (h ++ (es.map .tile ++ System.issueEvents coreId tile core)))
  (hes : es = [.launched coreId tile])
include ho hes

/-- The tile goes on where its accumulation is. -/
theorem Orderly.continues_last : ∀ p ∈ placements h,
    Continues p ⟨coreId, tile, (core.buffersFor tile).1, (core.buffersFor tile).2⟩ := by
  have hall := ho.continues
  rw [placements_append, (history_of_issue core hes).2] at hall
  exact fun p hp => (List.pairwise_append.mp hall).2.2 p hp _ List.mem_cons_self

/-- What was to be read later is so still, or the tile reads it. -/
theorem Later.issue {coreId' : Nat} {slot : SpadSlot} (hl : Later h coreId' slot) :
    Later (h ++ (es.map .tile ++ System.issueEvents coreId tile core)) coreId' slot ∨
      (coreId' = coreId ∧ tile.work.skip = false ∧ (core.programFor tile).Reads slot) := by
  obtain ⟨htiles, hplacements⟩ := history_of_issue core hes
  obtain ⟨haccum, next, hahead, hcontinues, hskip, ⟨r, hr, hread⟩, p, hp, hcore, hbuffer, hsame⟩ :=
    hl
  by_cases hnext : tile.identity = next.identity
  swap
  · refine .inl ⟨haccum, next, ?_, hcontinues, hskip, ⟨r, hr, hread⟩, p, ?_, hcore, hbuffer, hsame⟩
    · rw [tileEvents_append, htiles]
      refine hahead.append fun core launched hmem => ?_
      cases List.mem_singleton.mp hmem
      exact hnext
    · rw [placements_append]
      exact List.mem_append_left _ hp
  · obtain ⟨htile, hwork⟩ := SameAccumulation.of_identity hnext
    have hplace := ho.continues_last hes p hp (hsame.trans htile.symm)
    rw [if_pos (show tile.work.accum = true from hwork ▸ hcontinues)] at hplace
    refine .inr ⟨hcore.symm.trans hplace.1, hwork ▸ hskip, r, ?_, _, hread, ?_⟩
    · show r ∈ tile.work.instructions
      rw [hwork]
      exact hr
    · have hslot : slot.bufferId = (core.buffersFor tile).2 := hbuffer.symm.trans hplace.2
      cases slot
      simp only at haccum hslot
      rw [haccum, hslot]
      rfl

/-- What the tile loads is read. -/
theorem Books.loads_issue (hb : Books c s h) (hmem : tile ∈ s.tiles.contents)
    (hskip : tile.work.skip = false) :
    (∀ inst ∈ tile.work.instructions, inst.Counted) ∧
      Along (fun inst after => inst.opcode = .movin →
        (∃ r ∈ after, inst.dest ∈ r.reads) ∨
          Later (h ++ (es.map .tile ++ System.issueEvents coreId tile core)) coreId
            ((core.programFor tile).slot inst.dest)) tile.work.instructions := by
  obtain ⟨htiles, hplacements⟩ := history_of_issue core hes
  obtain ⟨model, hmodel, origin, horigin, hid, hstarted⟩ := hb.of_contents hmem
  obtain ⟨hsame, hwork⟩ := SameAccumulation.of_identity hid
  obtain ⟨_, op, hop, htilesOf⟩ := mem_ids_of_getTiles horigin
  obtain ⟨hcounted, halong⟩ := ho.before.loads model hmodel op hop origin (htilesOf ▸ horigin)
    (hwork ▸ hskip)
  rw [hwork] at hcounted halong
  refine ⟨hcounted, halong.imp fun inst after hload hmovin => (hload hmovin).imp_right ?_⟩
  rintro ⟨hfirst, haccum, next, hnext, hcontinues, hnoskip, hstatus, hgoes, r, hr, hread⟩
  have hlayer : next.layerId = tile.layerId := hgoes.1.symm.trans hsame.1
  have hdest : inst.dest = ⟨true, inst.dest.address⟩ := by
    rw [← haccum]
  refine ⟨haccum, next, ?_, hcontinues, hnoskip, ⟨r, hr, ?_⟩,
    ⟨coreId, tile, (core.buffersFor tile).1, (core.buffersFor tile).2⟩, ?_, rfl, ?_,
    hsame.symm.trans hgoes⟩
  · refine ⟨⟨model, ?_, ?_⟩, ?_, hstatus, fun core' launched hl heq => ?_⟩
    · rw [tileEvents_append, scheduled_append]
      exact List.mem_append_left _ hmodel
    · rw [hlayer, ← htilesOf]
      exact hnext
    · rw [hlayer, tileEvents_append, layersStarted_append]
      exact List.mem_append_left _ hstarted
    · -- a tile that goes on would come before the first one
      obtain ⟨hsame', hwork'⟩ := SameAccumulation.of_identity heq
      rw [tileEvents_append, htiles] at hl
      rcases List.mem_append.mp hl with hl | hl
      · obtain ⟨p, hp, _, rfl⟩ := hb.placed core' launched hl
        have hplace := ho.continues_last hes p hp (hsame'.trans (hgoes.symm.trans hsame))
        rw [if_neg (by simpa using hfirst), hwork', hcontinues] at hplace
        cases hplace
      · cases List.mem_singleton.mp hl
        rw [hwork', hcontinues] at hfirst
        cases hfirst
  · show (⟨true, inst.dest.address⟩ : SpadAddress) ∈ r.reads
    rw [← hdest]
    exact hread
  · rw [placements_append, hplacements]
    exact List.mem_append_right _ List.mem_cons_self
  · show _ = (SpadAddress.slot _ _ inst.dest).bufferId
    rw [SpadAddress.slot, haccum]
    rfl

end Issue

/-! ## 5. Every load is read -/

/-- On each core every load is read. -/
def Serves (later : Nat → SpadSlot → Prop) (s : System) : Prop :=
  ∀ coreId, (s.cores coreId).Served (later coreId) (loadSlots s.memory coreId)

section Interconnect

variable {later : Nat → SpadSlot → Prop} {bp : BackPressure} {vs k : List Transfer}

/-- An answer: of a load, it fills the slot. -/
theorem serves_coreResponse (hs : Serves later s) (ha : s.memory.Account k)
    (hr : s.coreResponse coreId = some (s', vs)) : Serves later s' := by
  unfold System.coreResponse at hr
  dsimp only at hr
  split at hr
  · cases hr
    exact hs
  next response rest hq =>
    have hloads := loads_of_coreResponse hq
    split at hr
    · next hwrite =>
        cases hr
        intro c
        have hsame : loadSlots (s.memory.coreResponse coreId).1 c = loadSlots s.memory c := by
          rw [loadSlots, hloads, loadSlots]
          split
          · next heq => rw [Simulator.pushMemoryResponse, if_pos hwrite, heq]
          · rfl
        have hserved := hs c
        rw [← hsame] at hserved
        exact hserved
    · next hread =>
        split at hr
        · cases hr
        next slot id hfind =>
          obtain ⟨core, hfill, heq⟩ := Option.map_eq_some_iff.mp hr
          cases heq
          intro c
          by_cases hc : c = coreId
          · subst hc
            have hperm := perm_of_find (ha.loadIds c).1 hfind
            have hslots : loadSlots (s.memory.coreResponse c).1 c =
                ((s.memory.cores c).loads.filter fun l => l.2 ≠ response.id).map Prod.fst := by
              rw [loadSlots, hloads, if_pos rfl, Simulator.pushMemoryResponse, if_neg hread]
            obtain ⟨old, _, _, hput⟩ := SystolicCore.put_of_fill hfill
            obtain ⟨spad, accSpad, rfl⟩ := hput.rest
            show SystolicCore.Served _ (loadSlots (s.memory.coreResponse c).1 c)
              (Function.update s.cores c _ c)
            rw [hslots, Function.update_self]
            refine (hs c).fill hfill rfl rfl rfl rfl (hperm.append_right _) fun slot' hmem => ?_
            exact hperm.mem_iff.mpr (List.mem_cons_of_mem _ hmem)
          · have hserved := hs c
            show SystolicCore.Served _ (loadSlots (s.memory.coreResponse coreId).1 c)
              (Function.update s.cores coreId _ c)
            rw [loadSlots, hloads, if_neg hc, Function.update_of_ne hc]
            exact hserved

theorem op_of_ne {o : Op} (ho : ∀ c, o ≠ .coreResponse c) :
    s.op bp o =
      some ({ s with memory := (s.memory.op bp o).1 }, (s.memory.op bp o).2) := by
  cases o with
  | coreResponse c => exact absurd rfl (ho c)
  | _ => rfl

theorem serves_op (hs : Serves later s) (ha : s.memory.Account k) {o : Op}
    (hr : s.op bp o = some (s', vs)) : Serves later s' := by
  by_cases ho : ∃ c, o = .coreResponse c
  · obtain ⟨c, rfl⟩ := ho
    exact serves_coreResponse hs ha hr
  · have hne : ∀ c, o ≠ .coreResponse c := fun c heq => ho ⟨c, heq⟩
    rw [op_of_ne hne] at hr
    cases hr
    intro c
    have hserved := hs c
    rw [loadSlots, ← sameLoads_op bp s.memory hne c] at hserved
    exact hserved

/-- **The interconnect cycle**, up to any of its parts. -/
theorem serves_runOps (hs : Serves later s) (ha : s.memory.Account k) {os : List Op}
    (hr : s.runOps bp os = some (s', vs)) : Serves later s' := by
  induction os generalizing s vs k with
  | nil =>
      cases hr
      exact hs
  | cons o os ih =>
      unfold System.runOps at hr
      split at hr
      · cases hr
      · next t e hop =>
          obtain ⟨⟨u, l⟩, hrest, heq⟩ := Option.map_eq_some_iff.mp hr
          cases heq
          have hchain := Simulator.op_chain ha.shape bp o
          rw [(System.memory_of_op hop).1] at hchain
          exact ih (serves_op hs ha hop) (Simulator.chain_account hchain ha) hrest

end Interconnect

/-! ## 6. The runs -/

section Steps

variable {later later' : Nat → SpadSlot → Prop} {es : List (TileEvent TileWork)}
  {t : TileSystem TileWork}

theorem Serves.mono (hs : Serves later s)
    (hlater : ∀ coreId slot, later coreId slot → later' coreId slot) : Serves later' s :=
  fun coreId => (hs coreId).mono (hlater coreId)

/-- A core is replaced. -/
theorem Serves.update (hs : Serves later s) {coreId : Nat} {core : SystolicCore}
    (t : TileSystem TileWork)
    (hcore : core.Served (later coreId) (loadSlots s.memory coreId)) :
    Serves later { s with tiles := t, cores := Function.update s.cores coreId core } := by
  intro c
  show SystolicCore.Served _ _ (Function.update s.cores coreId core c)
  by_cases hc : c = coreId
  · rw [hc, Function.update_self]
    exact hcore
  · rw [Function.update_of_ne hc]
    exact hs c

/-- A core gives back a finished tile. -/
theorem served_popFinishedTile {core core' : SystolicCore} {tile : Tile}
    {later : SpadSlot → Prop} {loads : List SpadSlot} (hs : core.Served later loads)
    (hpop : core.popFinishedTile = some (tile, core')) : core'.Served later loads := by
  unfold SystolicCore.popFinishedTile at hpop
  split at hpop
  · cases hpop
  · cases hpop
    exact hs.carry rfl (List.Sublist.refl _) (List.Sublist.refl _) (fun _ hnone => hnone)
      (fun front hmem => (hs.waiting front hmem).2.1) (hs.covers.congr rfl (.refl _)) hs.loaded

/-- Nothing is launched, but what a core gets. -/
theorem Books.not_launched (hb : Books c s h) {a : TileAct TileWork}
    (he : s.tiles.exec a = some (t, es)) (hnone : System.launchedTile es = none) (core : Nat)
    (tile : Tile) : .launched core tile ∉ tileEvents (es.map .tile) := by
  rw [tileEvents_tile]
  intro hl
  obtain ⟨_, rfl, _⟩ := launches_of_exec hb.tiles he hl
  cases hnone

/-- A core takes a tile. -/
theorem Serves.issue (hs : Serves (Later h) s) (hb : Books c s h) {coreId : Nat} {tile : Tile}
    (hroom : (s.cores coreId).canIssue = true) (hmem : tile ∈ s.tiles.contents)
    (hes : es = [.launched coreId tile])
    (ho : Orderly (h ++ (es.map .tile ++ System.issueEvents coreId tile (s.cores coreId)))) :
    Serves (Later (h ++ (es.map .tile ++ System.issueEvents coreId tile (s.cores coreId))))
      { s with
        tiles := t
        cores := Function.update s.cores coreId ((s.cores coreId).issue tile) } := by
  have hclean : ∀ v ∈ System.issueEvents coreId tile (s.cores coreId), v.Clean := fun v hv =>
    ho.clean v (List.mem_append_right _ (List.mem_append_right _ hv))
  unfold System.issueEvents at hclean
  dsimp only at hclean
  intro c'
  by_cases hc : c' = coreId
  · subst hc
    show SystolicCore.Served _ _ (Function.update s.cores c' _ c')
    rw [Function.update_self]
    refine (hs c').issue hroom (hclean _ List.mem_cons_self) (fun hflush => ?_) (fun slot hl => ?_)
      (fun hskip => (hb.loads_issue ho hes hmem hskip).1)
      fun hskip => (hb.loads_issue ho hes hmem hskip).2
    · rw [hflush, if_neg Bool.false_ne_true] at hclean
      exact hclean _ (List.mem_cons_of_mem _ List.mem_cons_self)
    · exact (Later.issue ho hes hl).imp_right And.right
  · show SystolicCore.Served _ _ (Function.update s.cores coreId _ c')
    rw [Function.update_of_ne hc]
    exact (hs c').mono fun slot hl =>
      (Later.issue ho hes hl).elim id fun hread => absurd hread.1 hc

/-- **A step keeps it.** -/
theorem Serves.step (hs : Serves (Later h) s) (hb : Books c s h) (hst : s.Steps s' e)
    (ho : Orderly (h ++ e)) : Serves (Later (h ++ e)) s' := by
  have hkept : (∀ core tile, .launched core tile ∉ tileEvents e) →
      ∀ coreId slot, Later h coreId slot → Later (h ++ e) coreId slot :=
    fun hnone _ _ hl => hl.append hnone
  have htransfers : ∀ vs : List Transfer, ∀ core tile,
      .launched core tile ∉ tileEvents (vs.map .transfer) := fun vs core tile hmem => by
    rw [tileEvents_transfer] at hmem
    cases hmem
  cases hst with
  | nothing =>
      rw [List.append_nil]
      exact hs
  | scheduled model next t es he =>
      refine hs.mono (hkept fun core tile hl => ?_)
      rw [tileEvents_tile] at hl
      cases (launches_of_exec hb.tiles he hl).1
  | finished coreId tile core t es hpop he =>
      refine (hs.update t (served_popFinishedTile (hs coreId) hpop)).mono
        (hkept fun core tile hl => ?_)
      rw [tileEvents_tile] at hl
      cases (launches_of_exec hb.tiles he hl).1
  | asked coreId t es he hnone => exact hs.mono (hkept (hb.not_launched he hnone))
  | issued coreId tile t es hroom he hsome =>
      obtain ⟨core, hl⟩ := launched_of_launchedTile hsome
      obtain ⟨hcore, hes, hmem⟩ := launches_of_exec hb.tiles he hl
      cases hcore
      exact hs.issue hb hroom hmem hes ho
  | cycled coreId clock core loads stores m vs hc hm =>
      refine Serves.mono (fun c' => ?_) (hkept (htransfers vs))
      show SystolicCore.Served _ (loadSlots m c') (Function.update s.cores coreId _ c')
      rw [loads_of_requestActs hm]
      by_cases hc' : c' = coreId
      · subst hc'
        rw [if_pos rfl, Function.update_self]
        exact (hs c').cycle hc
      · rw [if_neg hc', List.append_nil, Function.update_of_ne hc']
        exact hs c'
  | interconnect bp t vs hr =>
      exact (serves_runOps hs hb.account hr).mono (hkept (htransfers vs))
  | memory a m vs hr hloads =>
      refine Serves.mono (fun c' => ?_) (hkept (htransfers vs))
      have hserved := hs c'
      rw [loadSlots, ← hloads] at hserved
      exact hserved

end Steps

theorem Setup.start_serves (c : Setup) : Serves (Later []) c.start := by
  intro coreId
  exact
    { covers := ⟨fun _ => Nat.zero_le _, fun slot e he => by
        cases slot with
        | mk accum bufferId address => cases accum <;> cases he⟩
      counted := fun _ hp => by cases hp
      queued := fun _ hmem => by cases hmem
      single := Nat.zero_le 1
      waiting := fun _ hmem => by cases hmem
      loaded := fun _ hmem => by cases hmem
      supplies := fun _ hp => by cases hp }

/-- **In an orderly run every load is read.** -/
theorem Setup.served (hr : Exec System.machine c.start s h) (ho : Orderly h) :
    Serves (Later h) s := by
  have hall : Books c s h ∧ (Orderly h → Serves (Later h) s) := by
    refine hr.invariant (P := fun s h => Books c s h ∧ (Orderly h → Serves (Later h) s))
      ⟨c.start_books, fun _ => c.start_serves⟩ fun s h a s' hi hs => ?_
    obtain ⟨e, he, hobs⟩ := System.exec_of_step hs
    rw [hobs]
    have hst := System.steps_of_exec he
    exact ⟨hi.1.step hst, fun ho => (hi.2 ho.before).step hi.1 hst ho⟩
  exact hall.2 ho

end Ahasd.Npu
