/-
  File:      Ahasd/Tiles/Finishes.lean
  Subject:   THE SCHEDULER OF TILES COMES TO AN END.

  * `work`: what is left to do; every rule that shows something takes from it, so
    **`run_bounded`**: a run shows no more than the models that were scheduled give to do;
  * `Rest`: how an act leaves the scheduler: nothing stands before a barrier, and no layer is
    without tiles;
  * `Fair`: a tile does not run for ever, and an idle core asks again;
  * **`all_finish`**: then all models are finished, when no more are scheduled.
-/
import Mathlib.Tactic.IntervalCases
import Ahasd.Lib.InfiniteRun
import Ahasd.Tiles.Runs

namespace Ahasd

open Transition Queues TileSystem

variable {τ : Type}

/-! ## 1. What is left to do -/

namespace OperationGraph

/-- The tiles of an operation: its layer starts, and each is launched and ends. -/
def tilesWork (tiles : List (ScheduledTile τ)) : Nat :=
  if tiles.isEmpty then 0 else 1 + 2 * tiles.length

/-- An operation: its tiles, and its layer is finished. -/
def opWork (op : Operation τ) : Nat := (if op.finish then 0 else 1) + tilesWork op.tiles

/-- A model: its operations, and it is finished. -/
def work (g : OperationGraph τ) : Nat := 1 + (g.operationMap.map opWork).sum

/-- An operation has less to do, and no other has more. -/
theorem sum_opWork_le {f : Operation τ → Operation τ} (hf : ∀ op, opWork (f op) ≤ opWork op)
    {d : Nat} {op : Operation τ} (hd : opWork (f op) + d ≤ opWork op) :
    ∀ {ops : List (Operation τ)}, op ∈ ops →
      ((ops.map f).map opWork).sum + d ≤ (ops.map opWork).sum := by
  intro ops
  induction ops with
  | nil =>
      intro hop
      cases hop
  | cons first rest ih =>
      intro hop
      simp only [List.map_cons, List.sum_cons]
      rcases List.mem_cons.mp hop with rfl | hop
      · have hrest : ((rest.map f).map opWork).sum ≤ (rest.map opWork).sum := by
          rw [List.map_map]
          exact List.sum_le_sum fun o _ => hf o
        omega
      · have hfirst := hf first
        have hrest := ih hop
        omega

/-- The tiles of a layer are handed out. -/
theorem work_clearTiles {g : OperationGraph τ} {layer : Nat} (hne : g.getTiles layer ≠ []) :
    (g.clearTiles layer).work + (1 + 2 * (g.getTiles layer).length) ≤ g.work := by
  obtain ⟨op, hop, hid, htiles⟩ : ∃ op ∈ g.operationMap, op.id = layer ∧
      op.tiles = g.getTiles layer := by
    cases hfind : g.getOperation layer with
    | none => simp [getTiles, hfind] at hne
    | some op =>
        refine ⟨op, List.mem_of_find?_eq_some hfind, ?_, by simp [getTiles, hfind]⟩
        simpa using List.find?_some hfind
  have hle := sum_opWork_le (f := fun o => if o.id = layer then { o with tiles := [] } else o)
    (d := 1 + 2 * (g.getTiles layer).length) (fun o => ?_) ?_ hop
  · simp only [work, clearTiles]
    omega
  · split
    · simp [opWork, tilesWork]
    · exact Nat.le_refl _
  · simp [opWork, tilesWork, hid, htiles, hne]

/-- A layer is finished. -/
theorem work_setLayerFinish {g : OperationGraph τ} {layer : Nat} {op : Operation τ}
    (hop : op ∈ g.operationMap) (hid : op.id = layer) (hfinish : op.finish = false) :
    (g.setLayerFinish layer).work + 1 ≤ g.work := by
  have hle := sum_opWork_le (f := fun o => if o.id = layer then { o with finish := true } else o)
    (d := 1) (fun o => ?_) ?_ hop
  · simp only [work, OperationGraph.setLayerFinish, OperationGraph.setFinish]
    omega
  · split
    · simp [opWork]
    · exact Nat.le_refl _
  · simp only [hid, if_true, opWork, hfinish, Bool.false_eq_true, if_false]
    omega

end OperationGraph

namespace TileSystem

variable {setup : TileSetup} {s s' : TileSystem τ} {h e : List (TileEvent τ)}

/-- What is left to do. -/
def work (s : TileSystem τ) : Nat :=
  (s.sched.requestQueue.map OperationGraph.work).sum +
    2 * (s.sched.executableTileQueue 0).length + 2 * s.queued.card + s.runs.card

/-- What some models give to do, with the step that brings each. -/
def budget (models : List (OperationGraph τ)) : Nat :=
  (models.map fun model => 1 + model.work).sum

/-- A layer that may start has tiles. -/
theorem Inv.getTiles_ne_nil (hi : Inv setup s h) {model : OperationGraph τ}
    {later : List (OperationGraph τ)} {layer : Nat} {rest : List Nat}
    (hq : s.sched.requestQueue = model :: later) (hactive : s.sched.activeLayersMap = [])
    (hx : model.executableLayer = layer :: rest) : model.getTiles layer ≠ [] := by
  obtain ⟨past, orders, model₀, done, hw⟩ := hi.at_rest hq hactive
  have hI := hw.initialized hi.kept
  have hready := hw.front.ready
  rw [hx] at hready
  obtain ⟨hid, -⟩ := (hready.mem_iff layer).mp List.mem_cons_self
  obtain ⟨op, hop, rfl⟩ := OperationGraph.exists_of_mem_ids hid
  rw [(hw.front.begin hI hx).1, OperationGraph.getTiles, OperationGraph.getOperation_of_mem hI hop]
  exact (hI.tiles op hop).1

/-- **Every rule takes from the work what it shows.** -/
theorem Rule.work (hi : Inv setup s h) (hr : Rule s s' e) :
    work s' + e.length + budget (scheduled h) ≤ work s + budget (scheduled (h ++ e)) := by
  cases hr with
  | schedule model next hI hfresh =>
      have hnew : scheduled (h ++ [.scheduled model]) = scheduled h ++ [model] :=
        scheduled_append _ _
      simp only [hnew, TileSystem.work, budget, queued, runs, List.map_append, List.sum_append,
        List.map_cons, List.map_nil, List.sum_cons, List.sum_nil, List.length_singleton]
      omega
  | popModel model later hq hfinish =>
      have hsame : scheduled (h ++ [.modelFinished model.id]) = scheduled h := by
        simp [scheduled]
      simp only [hsame, TileSystem.work, queued, runs, hq, List.map_cons, List.sum_cons,
        List.length_singleton, OperationGraph.work]
      omega
  | startLayer model later layer rest hq hempty hactive hx =>
      have hsame : scheduled (h ++ [.layerStarted model.id layer]) = scheduled h := by
        simp [scheduled]
      have hwaiting : s.sched.executableTileQueue 0 = [] :=
        List.isEmpty_iff.mp (Bool.and_eq_true_iff.mp hempty).2
      have htiles := hi.getTiles_ne_nil hq hactive hx
      have hne : ({ model with executableLayer := rest } : OperationGraph τ).getTiles layer ≠ [] :=
        htiles
      have hle := OperationGraph.work_clearTiles hne
      simp only [hsame, TileSystem.work, queued, runs, hq, hwaiting, TileScheduler.started,
        TileScheduler.setStat, List.map_cons, List.sum_cons, List.nil_append,
        Function.update_self, List.length_nil, List.length_singleton]
      have hsize : ({ model with executableLayer := rest } : OperationGraph τ).work =
          model.work := rfl
      omega
  | issue partition core tile rest hq hbar hcore =>
      obtain rfl := elsewhere_eq hi.kept hq
      have hqueued : queued { s with sched := s.sched.issueTile 0 core tile rest } =
          { tile with coreId := some core } ::ₘ s.queued := gather_push hcore _
      rw [List.append_nil, TileSystem.work, TileSystem.work, hqueued, hq, Multiset.card_cons]
      simp only [TileScheduler.issueTile, runs, Function.update_self, List.length_cons,
        List.length_nil]
      omega
  | launch core tile rest stat hcore hq hstat =>
      have hsame : scheduled (h ++ [.launched core tile]) = scheduled h := by
        simp [scheduled]
      have hqueued : s.queued.card =
          (gather (Function.update s.sched.coreExecutableTileQueue core rest)
            s.sched.numCores).card + 1 := by
        rw [queued, gather_pop hcore hq, Multiset.card_cons]
      have hruns : (gather (Function.update s.running core (s.running core ++ [tile]))
          s.sched.numCores).card = s.runs.card + 1 := by
        rw [gather_push hcore, Multiset.card_cons, runs]
      simp only [hsame, TileSystem.work, hqueued, List.length_singleton]
      simp only [TileScheduler.setStat, queued, runs, hruns]
      omega
  | barrier partition tile rest stat hq hbar hstat hall hpos =>
      obtain rfl := elsewhere_eq hi.kept hq
      have hsame : scheduled (h ++ [.barrier tile]) = scheduled h := by
        simp [scheduled]
      simp only [hsame, TileSystem.work, hq, List.length_cons, List.length_nil]
      simp only [TileScheduler.setStat, queued, runs, Function.update_self]
      omega
  | finish core index tile stat hrun hstat hpos =>
      have hsame : scheduled (h ++ [.finished core tile]) = scheduled h := by
        simp [scheduled]
      have hcore : core < s.sched.numCores := by
        by_contra hge
        rw [hi.kept.outside core (Nat.le_of_not_lt hge)] at hrun
        cases hrun
      have hruns : s.runs.card =
          (gather (Function.update s.running core ((s.running core).eraseIdx index))
            s.sched.numCores).card + 1 := by
        rw [runs, gather_eraseIdx hcore hrun, Multiset.card_cons]
      simp only [hsame, TileSystem.work, hruns, List.length_singleton]
      simp only [TileScheduler.setStat, queued, runs]
      omega
  | finishLayer model later layer stat hq hstat hzero =>
      have hsame : scheduled (h ++ [.layerFinished model.id layer]) = scheduled h := by
        simp [scheduled]
      obtain ⟨past, orders, model₀, done, hw⟩ := hi.of_stat hq hstat
      obtain ⟨op, hop, hid⟩ := OperationGraph.exists_of_mem_ids (hw.mem_ids layer (by simp))
      have hmem : OperationGraph.afterLayers done (some layer) op ∈ model.operationMap := by
        rw [hw.front.operations]
        exact List.mem_map_of_mem hop
      have hopen : (OperationGraph.afterLayers done (some layer) op).finish = false := by
        simpa [OperationGraph.afterLayers, hid] using hw.front.ready.apart layer rfl
      have hle := OperationGraph.work_setLayerFinish hmem hid hopen
      simp only [hsame, TileSystem.work, hq, List.length_singleton, List.map_cons, List.sum_cons]
      simp only [TileScheduler.eraseStat, queued, runs, List.map_cons, List.sum_cons]
      omega

/-- The invariant, and what was shown is taken from what the models gave to do. -/
structure Bounded (setup : TileSetup) (s : TileSystem τ) (h : List (TileEvent τ)) : Prop where
  inv : Inv setup s h
  shown : h.length + work s ≤ budget (scheduled h)

theorem Rule.bounded (hr : Rule s s' e) (hb : Bounded setup s h) : Bounded setup s' (h ++ e) where
  inv := hr.inv hb.inv
  shown := by
    have hwork := Rule.work hb.inv hr
    have hshown := hb.shown
    rw [List.length_append]
    omega

end TileSystem

variable {setup : TileSetup} {s s' : TileSystem τ} {h e : List (TileEvent τ)}

theorem TileSetup.run_shown (hr : Exec machine (setup.start τ) s h) : Bounded setup s h := by
  refine hr.invariant (P := fun s h => Bounded setup s h) ⟨setup.start_inv, ?_⟩ ?_
  · simp [TileSystem.work, budget, queued, runs, gather, TileSetup.start, scheduled]
  · intro s h a s' hb hs
    obtain ⟨e, he, hobs⟩ := exec_of_step hs
    rw [hobs]
    exact Chain.preserves (P := fun s h => Bounded setup s h) (fun _ _ _ _ hb hr => hr.bounded hb)
      (hb.inv.tended.exec_chain he) hb

/-- **A run shows no more than its models give to do**: each layer is started and finished, each
    tile is launched and ends, each model is scheduled and finished. -/
theorem TileSetup.run_bounded (hr : Exec machine (setup.start τ) s h) :
    h.length + s.work ≤ budget (scheduled h) :=
  (setup.run_shown hr).shown

theorem TileSetup.run_bounded_sample :
    ∃ s h, machine.run twoLayerActs (twoCores.start Nat) = some (s, h) ∧
      h.length + s.work ≤ budget (scheduled h) :=
  have ⟨⟨s, h⟩, hr⟩ := Option.isSome_iff_exists.mp twoLayerActs_run
  ⟨s, h, hr, twoCores.run_bounded (exec_of_run hr)⟩

/-! ## 2. How an act leaves the scheduler -/

/-- Every entry counts a tile, and what is first in the queue of a partition is a barrier. -/
structure Rest (t : TileScheduler τ) : Prop where
  entries : ∀ entry ∈ t.activeLayersMap, entry.2.remainTiles ≠ 0
  fronts : ∀ partition tile rest, t.executableTileQueue partition = tile :: rest →
    tile.status = .bar

section Resting

variable {t : TileScheduler τ} {layer : Nat} {stat : LayerStat}

theorem Rest.setStat (hrest : Rest t) (hpos : stat.remainTiles ≠ 0) :
    Rest (t.setStat layer stat) where
  entries entry hentry := by
    rcases List.mem_cons.mp hentry with rfl | hentry
    · exact hpos
    · exact hrest.entries entry (List.mem_filter.mp hentry).1
  fronts := hrest.fronts

/-- The entry of a layer is erased, whatever it was set to. -/
theorem Rest.eraseStat (hrest : Rest t) : Rest ((t.setStat layer stat).eraseStat layer) where
  entries entry hentry := by
    simp only [TileScheduler.eraseStat, TileScheduler.setStat, List.mem_filter,
      List.mem_cons] at hentry
    rcases hentry with ⟨rfl | ⟨hmem, -⟩, hne⟩
    · simp at hne
    · exact hrest.entries entry hmem
  fronts := hrest.fronts

/-- The loop that gives tiles to the cores ends at a barrier. -/
theorem issueLoop_rest {coreOf : TileScheduler τ → ScheduledTile τ → Nat} {partition : Nat} :
    ∀ {tiles : List (ScheduledTile τ)} {t : TileScheduler τ},
      (∀ entry ∈ t.activeLayersMap, entry.2.remainTiles ≠ 0) →
      t.executableTileQueue partition = tiles →
      (∀ p, p ≠ partition → t.executableTileQueue p = []) →
        Rest (t.issueLoop coreOf partition tiles) := by
  intro tiles
  induction tiles with
  | nil =>
      intro t hentries hq helse
      refine ⟨hentries, fun p tile rest hp => ?_⟩
      rw [TileScheduler.issueLoop] at hp
      by_cases hpart : p = partition
      · rw [hpart, hq] at hp
        cases hp
      · rw [helse p hpart] at hp
        cases hp
  | cons first others ih =>
      intro t hentries hq helse
      rw [TileScheduler.issueLoop]
      split
      · next hbar =>
          refine ⟨hentries, fun p tile rest hp => ?_⟩
          by_cases hpart : p = partition
          · rw [hpart, hq] at hp
            cases hp
            exact hbar
          · rw [helse p hpart] at hp
            cases hp
      · refine ih hentries (Function.update_self _ _ _) fun p hp => ?_
        rw [TileScheduler.issueTile]
        dsimp only
        rw [Function.update_of_ne hp]
        exact helse p hp

theorem popFinished_rest (hrest : Rest t) : Rest t.popFinished.1 := by
  rw [TileScheduler.popFinished]
  split
  · exact hrest
  · split
    · exact ⟨hrest.entries, hrest.fronts⟩
    · exact hrest

end Resting

theorem TileSystem.Inv.startLayer_rest (hi : Inv setup s h) (hrest : Rest s.sched) :
    Rest s.sched.startLayer.1 := by
  rw [TileScheduler.startLayer]
  split
  · exact hrest
  next model later hq =>
    split
    swap
    · exact hrest
    next hidle =>
      have hactive := List.isEmpty_iff.mp (Bool.and_eq_true_iff.mp hidle).2
      rw [OperationGraph.getExecutableTile]
      cases hx : model.executableLayer with
      | nil => exact hrest
      | cons layer rest =>
          have htiles := hi.getTiles_ne_nil hq hactive hx
          refine issueLoop_rest ?_ rfl fun p hp => ?_
          · intro entry hentry
            simp only [TileScheduler.setStat, hactive, List.filter_nil, List.mem_singleton] at hentry
            rw [hentry]
            dsimp only
            rw [List.length_append]
            have hlen := List.length_pos_of_ne_nil htiles
            exact Nat.ne_of_gt (Nat.lt_of_lt_of_le hlen (Nat.le_add_left _ _))
          · exact elsewhere_update hi.kept _ p hp

theorem TileSystem.Inv.refreshStatus_rest (hi : Inv setup s h) (hrest : Rest s.sched) :
    Rest s.sched.refreshStatus.1 := by
  have hi' : Inv setup { s with sched := s.sched.popFinished.1 } (h ++ s.sched.popFinished.2) :=
    Chain.preserves (P := fun s h => Inv setup s h) (fun _ _ _ _ hi hr => hr.inv hi)
      chain_popFinished hi
  exact hi'.startLayer_rest (popFinished_rest hrest)

/-- The layer that has been counted down to nothing. -/
theorem TileSystem.Inv.finishLayer_rest (hi : Inv setup s h) {layer : Nat} {stat : LayerStat}
    (hstat : s.sched.layerStat layer = some stat) (hzero : stat.remainTiles = 0)
    (hrest : Rest (s.sched.eraseStat layer)) {r : TileScheduler τ × List (TileEvent τ)}
    (hr : s.sched.finishLayer layer = some r) : Rest r.1.refreshStatus.1 := by
  rw [TileScheduler.finishLayer] at hr
  split at hr
  · cases hr
  next model later hq =>
    cases hr
    have hi' := hi.finishLayer hq hstat hzero
    exact hi'.refreshStatus_rest ⟨hrest.entries, hrest.fronts⟩

/-- A tile ends. -/
theorem TileSystem.Inv.finish_rest (hi : Inv setup s h) (hrest : Rest s.sched) {core index : Nat}
    (he : s.finish core index = some (s', e)) : Rest s'.sched := by
  cases hi.tended.of_finish he with
  | last tile stat hrun hstat hpos hlast r hr =>
      exact (hi.finish hrun hstat).finishLayer_rest TileScheduler.layerStat_setStat hlast
        hrest.eraseStat hr
  | more tile stat hrun hstat hpos hmore =>
      exact (hi.finish hrun hstat).refreshStatus_rest (hrest.setStat hmore)

/-- With one tile left to count, nothing stands behind it. -/
theorem TileSystem.Inv.last_of_remain (hi : Inv setup s h) {tile : ScheduledTile τ}
    {rest : List (ScheduledTile τ)} {stat : LayerStat}
    (hq : s.sched.executableTileQueue 0 = tile :: rest)
    (hstat : s.sched.layerStat tile.layerId = some stat) (hlast : stat.remainTiles - 1 = 0) :
    rest = [] := by
  obtain ⟨past, orders, model₀, model, later, done, hw, -⟩ :=
    hi.working (mem_contents_of_waiting (hq ▸ List.mem_cons_self))
  obtain ⟨stat', hentry, hremain, -⟩ := (hw.underway _ rfl).entry
  rw [TileScheduler.layerStat_of_single hentry] at hstat
  obtain rfl : stat' = stat := Option.some.inj hstat
  rw [contents_of_waiting hq, Multiset.card_cons, Multiset.card_add, Multiset.card_add,
    Multiset.coe_card] at hremain
  exact List.eq_nil_of_length_eq_zero (by omega)

/-- A core asks. -/
theorem TileSystem.Inv.poll_rest (hi : Inv setup s h) (hrest : Rest s.sched) {core : Nat}
    (hcore : core < s.sched.numCores) (he : s.poll core = some (s', e)) : Rest s'.sched := by
  cases hi.tended.of_poll hcore he with
  | empty | foreign | held => exact hrest
  | launch tile rest stat hown hstat hpos =>
      have hrest' : Rest
          { s.sched with
            coreExecutableTileQueue :=
              Function.update s.sched.coreExecutableTileQueue core rest } :=
        ⟨hrest.entries, hrest.fronts⟩
      exact hrest'.setStat hpos
  | refresh hown hq => exact hi.refreshStatus_rest hrest
  | last tile rest stat hb hall hlast r hr =>
      have hi' := hi.barrier hb.first hb.entry hall
      have hempty : Rest
          { s.sched with
            executableTileQueue := Function.update s.sched.executableTileQueue 0 rest } := by
        refine ⟨hrest.entries, fun p tile' rest' hp => ?_⟩
        have hp : Function.update s.sched.executableTileQueue 0 rest p = tile' :: rest' := hp
        rw [hi.last_of_remain hb.first hb.entry hlast] at hp
        by_cases hpart : p = 0
        · rw [hpart, Function.update_self] at hp
          cases hp
        · rw [elsewhere_update hi.kept [] p hpart] at hp
          cases hp
      exact hi'.finishLayer_rest TileScheduler.layerStat_setStat hlast hempty.eraseStat hr
  | more tile rest stat hb hall hmore =>
      refine issueLoop_rest ?_ rfl (elsewhere_update hi.kept rest)
      intro entry hentry
      rcases List.mem_cons.mp hentry with rfl | hentry
      · exact hmore
      · exact hrest.entries entry (List.mem_filter.mp hentry).1

/-- **An act leaves the scheduler at rest.** -/
theorem TileSystem.Inv.exec_rest (hi : Inv setup s h) (hrest : Rest s.sched) {a : TileAct τ}
    (he : s.exec a = some (s', e)) : Rest s'.sched := by
  cases a with
  | schedule model next =>
      rw [TileSystem.exec] at he
      split at he
      · next hfresh =>
          cases he
          have hi' := hi.schedule model.2 hfresh
          exact hi'.refreshStatus_rest ⟨hrest.entries, hrest.fronts⟩
      · cases he
  | poll core =>
      rw [TileSystem.exec] at he
      split at he
      · next hcore => exact hi.poll_rest hrest hcore he
      · cases he
  | finish core index => exact hi.finish_rest hrest he

theorem TileSetup.run_rest (hr : Exec machine (setup.start τ) s h) :
    Inv setup s h ∧ Rest s.sched := by
  refine hr.invariant (P := fun s h => Inv setup s h ∧ Rest s.sched)
    ⟨setup.start_inv, by simp [TileSetup.start], by simp [TileSetup.start]⟩
    fun s h a s' hp hs => ?_
  obtain ⟨hi, hrest⟩ := hp
  obtain ⟨e, he, hobs⟩ := exec_of_step hs
  rw [hobs]
  exact ⟨hi.exec he, hi.exec_rest hrest he⟩

/-! ## 3. Acts that show nothing -/

/-- A status that is refreshed and shows nothing stays as it is; then the first model is not
    finished, and where nothing is under way no layer may start. -/
theorem refreshStatus_silent {t : TileScheduler τ} (hnil : t.refreshStatus.2 = []) :
    t.refreshStatus.1 = t ∧ ∀ model later, t.requestQueue = model :: later →
      model.checkFinish = false ∧
        (t.tileQueueEmpty = true → t.activeLayersMap = [] → model.executableLayer = []) := by
  obtain ⟨hpop, hstart⟩ := List.append_eq_nil_iff.mp hnil
  have hsame : t.popFinished.1 = t ∧ ∀ model later, t.requestQueue = model :: later →
      model.checkFinish = false := by
    rw [TileScheduler.popFinished] at hpop ⊢
    split at hpop
    · next hq => exact ⟨rfl, fun model later hq' => by rw [hq] at hq'; cases hq'⟩
    · next model later hq =>
        split at hpop
        · cases hpop
        · next hnot =>
            refine ⟨by rw [if_neg hnot], fun model' later' hq' => ?_⟩
            rw [hq] at hq'
            cases hq'
            exact Bool.eq_false_iff.mpr hnot
  rw [TileScheduler.refreshStatus]
  rw [hsame.1] at hstart ⊢
  dsimp only
  have hstart' : t.startLayer.1 = t ∧ ∀ model later, t.requestQueue = model :: later →
      t.tileQueueEmpty = true → t.activeLayersMap = [] → model.executableLayer = [] := by
    rw [TileScheduler.startLayer] at hstart ⊢
    split at hstart
    · next hq => exact ⟨rfl, fun model later hq' => by rw [hq] at hq'; cases hq'⟩
    · next model later hq =>
        split at hstart
        · next hidle =>
            rw [OperationGraph.getExecutableTile] at hstart ⊢
            cases hx : model.executableLayer with
            | nil =>
                refine ⟨by rw [if_pos hidle], fun model' later' hq' _ _ => ?_⟩
                rw [hq] at hq'
                cases hq'
                exact hx
            | cons layer rest =>
                rw [hx] at hstart
                cases hstart
        · next hidle =>
            refine ⟨by rw [if_neg hidle], fun model' later' hq' hempty hmap => ?_⟩
            rw [hempty, hmap] at hidle
            exact absurd rfl hidle
  exact ⟨hstart'.1, fun model later hq => ⟨hsame.2 model later hq, hstart'.2 model later hq⟩⟩

/-- A core that asks and shows nothing leaves everything as it is. It has no tile in its queue; and
    where no tile runs, none stands before a barrier of its partition, and its status has nothing to
    refresh. -/
theorem TileSystem.Inv.poll_silent (hi : Inv setup s h) (hrest : Rest s.sched) {core : Nat}
    (hcore : core < s.sched.numCores) (he : s.poll core = some (s', e)) (hnil : e = []) :
    s' = s ∧ (s.sched.requestQueue ≠ [] →
      s.sched.coreExecutableTileQueue core = [] ∧
        (s.runs = 0 → s.sched.executableTileQueue (s.sched.cpuToPartition core) = []) ∧
        (s.sched.executableTileQueue (s.sched.cpuToPartition core) = [] →
          s.sched.refreshStatus.2 = [])) := by
  cases hi.tended.of_poll hcore he with
  | empty hnone => exact ⟨rfl, fun hne => absurd hnone hne⟩
  | launch | last | more => cases hnil
  | refresh hown hq =>
      rw [(refreshStatus_silent hnil).1]
      exact ⟨rfl, fun _ => ⟨hown, fun _ => hq, fun _ => hnil⟩⟩
  | foreign tile rest hq hbar => exact absurd (hrest.fronts _ tile rest hq) hbar
  | held tile rest stat hb hnot =>
      refine ⟨rfl, fun _ => ⟨hb.own, fun hruns => ?_, fun hnone => ?_⟩⟩
      · -- where nothing runs, all tiles launched are finished
        obtain ⟨past, orders, model₀, model, later, done, hw, -⟩ :=
          hi.working (mem_contents_of_waiting (hb.first ▸ List.mem_cons_self))
        obtain ⟨stat', hentry, -, hlaunched⟩ := (hw.underway _ rfl).entry
        have hstat := hb.entry
        rw [TileScheduler.layerStat_of_single hentry] at hstat
        cases hstat
        rw [hruns, Multiset.card_zero] at hlaunched
        exact absurd hlaunched hnot
      · rw [hb.partition, hb.first] at hnone
        cases hnone

/-- Where no tile runs and no core's question shows anything, no model is left. -/
theorem TileSystem.Inv.empty_of_silent (hi : Inv setup s h) (hrest : Rest s.sched)
    (hcore : ∃ core < setup.numCores, (setup.start τ).sched.cpuToPartition core = 0)
    (hidle : ∀ core, s.running core = [])
    (hpolled : ∀ core < setup.numCores, s.poll core = some (s, [])) :
    s.sched.requestQueue = [] := by
  by_contra hne
  have hn : s.sched.numCores = setup.numCores := hi.kept.numCores
  have hruns : s.runs = 0 := gather_eq_zero.mpr fun core _ => hidle core
  obtain ⟨core, hlt, hpart⟩ := hcore
  have hpart' : s.sched.cpuToPartition core = 0 := by
    rw [TileScheduler.cpuToPartition, hi.kept.partitions]
    exact hpart
  have hsilent := fun c hc => (hi.poll_silent hrest (hn.symm ▸ hc) (hpolled c hc) rfl).2 hne
  obtain ⟨-, hwaiting, hrefresh⟩ := hsilent core hlt
  rw [hpart'] at hwaiting hrefresh
  have hqueues : ∀ c < s.sched.numCores, s.sched.coreExecutableTileQueue c = [] :=
    fun c hc => (hsilent c (hn ▸ hc)).1
  have hcontents : s.contents = 0 :=
    contents_eq_zero.mpr ⟨hwaiting hruns, gather_eq_zero.mpr hqueues, hruns⟩
  obtain ⟨model, later, hq⟩ := List.exists_cons_of_ne_nil hne
  obtain ⟨hopen, hstuck⟩ := (refreshStatus_silent (hrefresh (hwaiting hruns))).2 model later hq
  have htiles : s.sched.tileQueueEmpty = true := by
    simp only [TileScheduler.tileQueueEmpty, hwaiting hruns, List.isEmpty_nil, Bool.and_true,
      List.all_eq_true, List.mem_range]
    intro c hc
    rw [hqueues c hc]
    rfl
  -- an entry would count a tile
  have hentries : s.sched.activeLayersMap = [] := by
    rcases hi.course with ⟨past, orders, hdone⟩ |
      ⟨past, orders, model₀, front, later', done, active, hw⟩
    · exact hdone.quiet.entries
    · cases active with
      | none => exact (hw.quiet rfl).entries
      | some layer =>
          obtain ⟨stat, hentry, hremain, -⟩ := (hw.underway layer rfl).entry
          rw [hcontents, Multiset.card_zero] at hremain
          exact absurd hremain (hrest.entries (layer, stat) (by rw [hentry]; simp))
  obtain ⟨past, orders, model₀, done, hw⟩ := hi.at_rest hq hentries
  exact hw.front.executable_ne_nil (hw.initialized hi.kept) hopen (hstuck htiles hentries)

/-- Where no model is left, all were finished, with all layers and tiles. -/
theorem TileSystem.Inv.done_of_empty (hi : Inv setup s h) (hempty : s.sched.requestQueue = []) :
    modelsFinished h = (scheduled h).map OperationGraph.id ∧
      ∀ model ∈ scheduled h, ∀ layer ∈ model.ids, layer ∈ layersFinished h ∧
        (tilesDone layer h).Perm ((model.getTiles layer).map ScheduledTile.identity) := by
  rcases hi.course with ⟨past, orders, hdone⟩ |
    ⟨past, orders, model₀, front, later, done, active, hw⟩
  · refine ⟨by rw [hdone.finished, hdone.scheduled], fun model hmodel layer hid => ?_⟩
    have hfinished : layer ∈ layersFinished h := by
      rw [hdone.done, (flatten_perm hdone.served).mem_iff]
      rw [hdone.scheduled] at hmodel
      exact List.mem_flatMap.mpr ⟨model, hmodel, hid⟩
    exact ⟨hfinished, hi.kept.account model hmodel layer hid hfinished⟩
  · rw [hw.queue] at hempty
    cases hempty

/-! ## 4. The end -/

/-- **A fair run**: no core runs tiles for ever without one that ends, and an idle core asks. -/
structure TileSetup.Fair (setup : TileSetup)
    (r : InfiniteRun (machine (τ := τ)) (setup.start τ)) : Prop where
  ends : ∀ core n, (∀ m, n ≤ m → (r.state m).running core ≠ []) →
    ∃ m, n ≤ m ∧ ∃ index, r.act m = .finish core index
  asks : ∀ core < setup.numCores, ∀ n, (∀ m, n ≤ m → (r.state m).running core = []) →
    ∃ m, n ≤ m ∧ r.act m = .poll core

/-- The act schedules no model. -/
def TileAct.NoModel : TileAct τ → Prop
  | .schedule _ _ => False
  | .poll _ | .finish _ _ => True

/-- Such an act shows no model that is scheduled. -/
theorem scheduled_of_exec (hi : Inv setup s h) {a : TileAct τ} (ha : a.NoModel)
    (he : s.exec a = some (s', e)) : scheduled e = [] := by
  have hstatus : ∀ {e : List (TileEvent τ)}, (∀ v ∈ e, ofStatus v = true) → scheduled e = [] := by
    intro e hall
    refine List.filterMap_eq_nil_iff.mpr fun v hv => ?_
    have hv := hall v hv
    cases v <;> first | rfl | cases hv
  cases a with
  | schedule model next => cases ha
  | poll core =>
      rw [TileSystem.exec] at he
      split at he
      swap
      · cases he
      next hcore =>
        cases hi.tended.of_poll hcore he with
        | empty | foreign | held | launch | more => rfl
        | refresh => exact hstatus (refreshStatus_shows _)
        | last tile rest stat hb hall hlast r hr =>
            have htail := hstatus (finishLayer_shows hr)
            exact htail
  | finish core index =>
      cases hi.tended.of_finish he with
      | last tile stat hrun hstat hpos hlast r hr =>
          have htail := hstatus (finishLayer_shows hr)
          exact htail
      | more tile stat hrun hstat hpos hmore =>
          have htail := hstatus
            (refreshStatus_shows (TileSystem.counted core index tile stat s).sched)
          exact htail

/-- The end of a tile is shown. -/
theorem TileSystem.Inv.finish_shows (hi : Inv setup s h) {core index : Nat}
    (he : s.exec (.finish core index) = some (s', e)) : e ≠ [] := by
  cases hi.tended.of_finish he <;> exact List.cons_ne_nil _ _

section Endless

variable {r : InfiniteRun (machine (τ := τ)) (setup.start τ)} {n : Nat}

/-- The step of a time, with what it shows. -/
theorem exec_at (r : InfiniteRun (machine (τ := τ)) (setup.start τ)) (n : Nat) :
    (r.state n).exec (r.act n) = some (r.state (n + 1), r.shown n) := by
  obtain ⟨e, he, hobs⟩ := exec_of_step (r.step n)
  rw [he, InfiniteRun.shown, hobs]

/-- An act that shows nothing leaves everything as it is. -/
theorem state_succ_of_silent (hshown : r.shown n = []) : r.state (n + 1) = r.state n := by
  obtain ⟨hi, hrest⟩ := setup.run_rest (r.exec n)
  have he := exec_at r n
  rw [hshown] at he
  cases hact : r.act n with
  | schedule model next =>
      rw [hact, TileSystem.exec] at he
      split at he
      · have hshow := (Prod.mk.inj (Option.some.inj he)).2
        cases hshow
      · cases he
  | poll core =>
      rw [hact, TileSystem.exec] at he
      split at he
      · next hcore => exact (hi.poll_silent hrest hcore he rfl).1
      · cases he
  | finish core index =>
      rw [hact] at he
      exact absurd rfl (hi.finish_shows he)

/-- No model comes any more: the models scheduled are those of an earlier time. -/
theorem scheduled_const {N : Nat} (hno : ∀ m, N ≤ m → (r.act m).NoModel) (hn : N ≤ n) :
    scheduled (r.history n) = scheduled (r.history N) := by
  induction hn with
  | refl => rfl
  | @step m hm ih =>
      rw [InfiniteRun.history, scheduled_append, ih,
        scheduled_of_exec (setup.run_inv (r.exec m)) (hno m hm) (exec_at r m), List.append_nil]

/-- **From some time on nothing happens any more.** -/
theorem exists_silent (hno : ∃ N, ∀ m, N ≤ m → (r.act m).NoModel) :
    ∃ N, ∀ m, N ≤ m → r.shown m = [] ∧ r.state m = r.state N := by
  obtain ⟨N₀, hno⟩ := hno
  have hbound : ∀ m, (r.history m).length ≤ budget (scheduled (r.history N₀)) := by
    intro m
    have hlater := (setup.run_shown (r.exec (max m N₀))).shown
    rw [scheduled_const hno (Nat.le_max_right m N₀)] at hlater
    have hmono := r.history_length_mono (Nat.le_max_left m N₀)
    omega
  obtain ⟨N, hN⟩ := r.silent_after hbound
  refine ⟨N, fun m hm => ⟨hN m hm, ?_⟩⟩
  induction hm with
  | refl => rfl
  | @step k hk ih => rw [state_succ_of_silent (hN k hk), ih]

end Endless

/-- **All models are finished.** In a fair run of a configuration with a core in the first partition,
    when no more models are scheduled, there is a time from which on the scheduler is empty: all
    models were finished, in the order they came, and of each every layer, and of each layer every
    tile. -/
theorem TileSetup.all_finish (r : InfiniteRun (machine (τ := τ)) (setup.start τ))
    (hcore : ∃ core < setup.numCores, (setup.start τ).sched.cpuToPartition core = 0)
    (hfair : setup.Fair r) (hno : ∃ N, ∀ m, N ≤ m → (r.act m).NoModel) :
    ∃ N, ∀ m, N ≤ m → (r.state m).sched.requestQueue = [] ∧
      modelsFinished (r.history m) = (scheduled (r.history m)).map OperationGraph.id ∧
      ∀ model ∈ scheduled (r.history m), ∀ layer ∈ model.ids,
        layer ∈ layersFinished (r.history m) ∧
          (tilesDone layer (r.history m)).Perm
            ((model.getTiles layer).map ScheduledTile.identity) := by
  obtain ⟨N, hN⟩ := exists_silent hno
  obtain ⟨hi, hrest⟩ := setup.run_rest (r.exec N)
  have hn : (r.state N).sched.numCores = setup.numCores := hi.kept.numCores
  -- what happens from now on happens at one and the same state, and shows nothing
  have hexec : ∀ m, N ≤ m → (r.state N).exec (r.act m) = some (r.state N, []) := by
    intro m hm
    have he := exec_at r m
    rwa [(hN m hm).1, (hN m hm).2, (hN (m + 1) (Nat.le_succ_of_le hm)).2] at he
  have hidle : ∀ core, (r.state N).running core = [] := by
    intro core
    by_contra hrun
    obtain ⟨m, hm, index, hact⟩ := hfair.ends core N fun m hm => by rwa [(hN m hm).2]
    have he := hexec m hm
    rw [hact] at he
    exact hi.finish_shows he rfl
  have hpolled : ∀ core < setup.numCores,
      (r.state N).poll core = some (r.state N, []) := by
    intro core hlt
    obtain ⟨m, hm, hact⟩ := hfair.asks core hlt N fun m hm => by rw [(hN m hm).2, hidle core]
    have he := hexec m hm
    rwa [hact, TileSystem.exec, if_pos (hn.symm ▸ hlt)] at he
  have hempty : (r.state N).sched.requestQueue = [] :=
    hi.empty_of_silent hrest hcore hidle hpolled
  refine ⟨N, fun m hm => ?_⟩
  have hi' := setup.run_inv (r.exec m)
  have hempty' : (r.state m).sched.requestQueue = [] := by rw [(hN m hm).2, hempty]
  exact ⟨hempty', hi'.done_of_empty hempty'⟩

/-- The last tile ends as well. -/
def allActs : List (TileAct Nat) := twoLayerActs ++ [.finish 1 0]

/-- After that the cores ask in turn, for ever. -/
def endlessRun : InfiniteRun (machine (τ := Nat)) (twoCores.start Nat) where
  state n := ((machine.run (allActs.take n) (twoCores.start Nat)).map Prod.fst).getD
    (twoCores.start Nat)
  act n := allActs.getD n (.poll (n % 2))
  start := rfl
  step n := by
    rcases Nat.lt_or_ge n 10 with hn | hn
    · interval_cases n <;> rfl
    · rw [List.take_of_length_le (hn.trans' (by decide)),
        List.take_of_length_le ((Nat.le_succ_of_le hn).trans' (by decide)),
        List.getD_eq_default _ _ (hn.trans' (by decide))]
      rcases Nat.mod_two_eq_zero_or_one n with hmod | hmod <;>
        · rw [hmod]
          rfl

theorem endlessRun_poll {n : Nat} (hn : 10 ≤ n) : endlessRun.act n = .poll (n % 2) :=
  List.getD_eq_default _ _ (hn.trans' (by decide))

theorem endlessRun_idle {n : Nat} (hn : 10 ≤ n) (core : Nat) :
    (endlessRun.state n).running core = [] := by
  have hstate : endlessRun.state n = endlessRun.state 10 := by
    dsimp only [endlessRun]
    rw [List.take_of_length_le (hn.trans' (by decide))]
    rfl
  rw [hstate]
  rcases core with _ | _ | core <;> rfl

theorem endlessRun_fair : twoCores.Fair endlessRun where
  ends core n hruns :=
    absurd (endlessRun_idle (Nat.le_max_right n 10) core) (hruns _ (Nat.le_max_left n 10))
  asks core hcore n _ := by
    have hlt : core < 2 := hcore
    refine ⟨10 + 2 * n + core, by omega, ?_⟩
    rw [endlessRun_poll (by omega)]
    congr 1
    omega

theorem TileSetup.all_finish_sample :
    ∃ N, ∀ m, N ≤ m → (endlessRun.state m).sched.requestQueue = [] ∧
      modelsFinished (endlessRun.history m) =
        (scheduled (endlessRun.history m)).map OperationGraph.id ∧
      ∀ model ∈ scheduled (endlessRun.history m), ∀ layer ∈ model.ids,
        layer ∈ layersFinished (endlessRun.history m) ∧
          (tilesDone layer (endlessRun.history m)).Perm
            ((model.getTiles layer).map ScheduledTile.identity) :=
  twoCores.all_finish endlessRun ⟨0, by decide, rfl⟩ endlessRun_fair
    ⟨10, fun m hm => by
      rw [endlessRun_poll hm]
      trivial⟩

end Ahasd
