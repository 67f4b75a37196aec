/-
  File:      Ahasd/EDCHistory.lean
  Subject:   THE ENTROPY HISTORY AS A LOG WITH DISCARDS (async_queue/EDC.h).

  LEHT and LCEHT are a circular table with its checkpoint: a poll writes a bucket, a verification
  that accepts everything commits, any other goes back to the checkpoint, `reset` clears both.

  * `Op`, `EDC.apply`: the three operations, in any order;
  * `apply_tables`: each is one move of `CircularLog.Checkpointed`;
  * **`entropy_history`**: the tables are the replays of the log, whatever the sizes and wherever
    the pointer wraps, and a batch that was not fully accepted leaves no trace in them.
-/
import Ahasd.EDC

namespace Ahasd

open CircularLog

namespace EDC

/-- The operations on the drafting control. -/
inductive Op where
  | shouldContinueDrafting (avgEntropy : ℚ)
  | updateOnVerification (fullyAccepted : Bool) (acceptedCount : Nat)
  | reset

/-- One operation. -/
def apply (e : EDC) : Op → EDC
  | .shouldContinueDrafting avgEntropy => (e.shouldContinueDrafting avgEntropy).2
  | .updateOnVerification fullyAccepted acceptedCount =>
      e.updateOnVerification fullyAccepted acceptedCount
  | .reset => e.reset

/-- The operations, one after the other. -/
def applyAll (e : EDC) (ops : List Op) : EDC := ops.foldl apply e

/-- LEHT and LCEHT, each with its pointer. -/
def tables (e : EDC) : Checkpointed Nat := ⟨e.history, e.committed⟩

/-- What an operation means for the history: `e` gives the scale of the entropy buckets. -/
def moveOf (e : EDC) : Op → Move Nat
  | .shouldContinueDrafting avgEntropy => .write (e.entropyToBucket avgEntropy)
  | .updateOnVerification true _ => .commit
  | .updateOnVerification false _ => .rollback
  | .reset => .clear

/-- The scale of the buckets is `h_max`. -/
theorem moveOf_congr {e e' : EDC} (h : e'.hMax = e.hMax) (op : Op) : e'.moveOf op = e.moveOf op := by
  cases op with
  | shouldContinueDrafting avgEntropy =>
      unfold moveOf entropyToBucket
      rw [h]
  | updateOnVerification fullyAccepted acceptedCount => cases fullyAccepted <;> rfl
  | reset => rfl

theorem reset_sized {e : EDC} (hs : e.Sized) : e.reset.Sized :=
  ⟨(List.length_map ..).trans hs.leht, (List.length_map ..).trans hs.lceht, rfl⟩

/-- The operations keep the scale and the sizes. -/
theorem apply_keeps {e : EDC} (hs : e.Sized) (op : Op) :
    (e.apply op).hMax = e.hMax ∧ (e.apply op).Sized := by
  cases op with
  | shouldContinueDrafting avgEntropy =>
      have hpoll := e.poll_polled avgEntropy
      exact ⟨hpoll.hMax, hpoll.sized hs⟩
  | updateOnVerification fullyAccepted acceptedCount =>
      exact ⟨e.update_hMax fullyAccepted acceptedCount, update_sized fullyAccepted acceptedCount hs⟩
  | reset => exact ⟨rfl, reset_sized hs⟩

/-- **One operation is one move** of the table and its checkpoint. -/
theorem apply_tables {e : EDC} (hs : e.Sized) (op : Op) :
    (e.apply op).tables = e.tables.move 0 (e.moveOf op) := by
  cases op with
  | shouldContinueDrafting avgEntropy =>
      have hpoll := e.poll_polled avgEntropy
      show Checkpointed.mk (e.shouldContinueDrafting avgEntropy).2.history
        (e.shouldContinueDrafting avgEntropy).2.committed = _
      rw [hpoll.history hs, hpoll.committed]
      rfl
  | updateOnVerification fullyAccepted acceptedCount =>
      show Checkpointed.mk (e.updateOnVerification fullyAccepted acceptedCount).history
        (e.updateOnVerification fullyAccepted acceptedCount).committed = _
      rw [update_committed, update_history]
      cases fullyAccepted <;> rfl
  | reset => rfl

/-- A list of operations is its list of moves. -/
theorem applyAll_tables {e : EDC} (hs : e.Sized) (ops : List Op) :
    (e.applyAll ops).tables = (ops.map e.moveOf).foldl (Checkpointed.move 0) e.tables := by
  induction ops generalizing e with
  | nil => rfl
  | cons op ops ih =>
      obtain ⟨hmax, hsized⟩ := apply_keeps hs op
      have hmoves : ops.map (e.apply op).moveOf = ops.map e.moveOf :=
        List.map_congr_left fun o _ => moveOf_congr hmax o
      show ((e.apply op).applyAll ops).tables = _
      rw [ih hsized, hmoves, apply_tables hs op]
      rfl

theorem new_tables (hMax : ℚ) (lehtSize llrBits : Nat) :
    (new hMax lehtSize llrBits).tables = .blank 0 (max 1 lehtSize) := rfl

/-- The operations that remain when every verification that did not accept everything goes, together
    with the polls of its batch. -/
def withoutRejected (ops : List Op) : List Op :=
  let k := ops.foldl keep ([], [])
  k.1 ++ k.2
where
  /-- One operation, for those to keep so far and the polls since the last verification. -/
  keep (k : List Op × List Op) : Op → List Op × List Op
    | .shouldContinueDrafting avgEntropy => (k.1, k.2 ++ [.shouldContinueDrafting avgEntropy])
    | .updateOnVerification true n => (k.1 ++ k.2 ++ [.updateOnVerification true n], [])
    | .updateOnVerification false _ => (k.1, [])
    | .reset => (k.1 ++ k.2 ++ [.reset], [])

/-- The operations that remain mean the moves that remain. -/
theorem map_withoutRejected (e : EDC) (ops : List Op) :
    (withoutRejected ops).map e.moveOf = Log.withoutDiscarded (ops.map e.moveOf) := by
  have hfold : ∀ (ops : List Op) (k : List Op × List Op),
      ((ops.foldl withoutRejected.keep k).1.map e.moveOf,
          (ops.foldl withoutRejected.keep k).2.map e.moveOf) =
        (ops.map e.moveOf).foldl Log.keep (k.1.map e.moveOf, k.2.map e.moveOf) := by
    intro ops
    induction ops with
    | nil => exact fun _ => rfl
    | cons op ops ih =>
        intro k
        rw [List.foldl_cons, ih, List.map_cons, List.foldl_cons]
        congr 1
        cases op with
        | shouldContinueDrafting avgEntropy => simp [withoutRejected.keep, Log.keep, moveOf]
        | updateOnVerification fullyAccepted acceptedCount =>
            cases fullyAccepted <;> simp [withoutRejected.keep, Log.keep, moveOf]
        | reset => simp [withoutRejected.keep, Log.keep, moveOf]
  have hk := hfold ops ([], [])
  unfold withoutRejected Log.withoutDiscarded
  dsimp only
  rw [List.map_append, ← show _ = (ops.map e.moveOf).foldl Log.keep ([], []) from hk]

/-- **The entropy history**, for every configuration and every sequence of operations: LEHT with its
    pointer is the replay, from the zeroed table, of the buckets of the fully accepted batches since
    the last reset followed by those of the batch not yet verified; LCEHT is the replay of the
    former. Without the batches that were not fully accepted both tables are the same. -/
theorem entropy_history (hMax : ℚ) (lehtSize llrBits : Nat) (ops : List Op) :
    let start := new hMax lehtSize llrBits
    let log := Log.run (ops.map start.moveOf)
    let zeroed : Table Nat := .blank 0 (max 1 lehtSize)
    (start.applyAll ops).history = zeroed.replay (log.kept ++ log.pending) ∧
      (start.applyAll ops).committed = zeroed.replay log.kept ∧
      (start.applyAll ops).tables = (start.applyAll (withoutRejected ops)).tables := by
  intro start log zeroed
  have hsized : start.Sized := new_sized hMax lehtSize llrBits
  have htables : ∀ ops, (start.applyAll ops).tables =
      .ofLog 0 (max 1 lehtSize) (Log.run (ops.map start.moveOf)) := by
    intro ops
    rw [applyAll_tables hsized, new_tables, Checkpointed.run_eq]
  have hops := htables ops
  refine ⟨congrArg Checkpointed.recent hops, congrArg Checkpointed.committed hops, ?_⟩
  rw [hops, htables, map_withoutRejected, Log.run_withoutDiscarded]

/-- A rejected batch between two accepted ones on a table of two slots. -/
example : let e := (new 10 2 3).applyAll [.shouldContinueDrafting 2, .shouldContinueDrafting 3,
      .updateOnVerification true 2, .shouldContinueDrafting 9, .updateOnVerification false 0,
      .shouldContinueDrafting 6]
    e.history = ⟨[4, 2], 1⟩ ∧ e.committed = ⟨[1, 2], 0⟩ := by
  decide +kernel

end EDC

end Ahasd
