/-
  File:      Ahasd/Lib/CircularLog.lean
  Subject:   CIRCULAR TABLES WITH A WRITE POINTER. A library file: it names nothing of the program.

  * `Table`, `Table.push`: a table of slots and the position the next write goes to;
  * `Table.replay`: a list of values written one after the other;
  * `Table.InRange`: the pointer addresses a slot; pushes keep it and the number of slots;
  * `Checkpointed`: a table with a copy to go back to, and its moves (`Move`);
  * `Log`: what the moves mean -- values kept, values pending, a rollback discards the pending ones;
  * **`Checkpointed.run_eq`**: the two tables are the replays of the log;
    `Log.run_withoutDiscarded`: what was discarded might as well not have been written.
-/

namespace CircularLog

variable {α : Type}

/-- A circular table: its slots, and the slot the next value is written to. -/
structure Table (α : Type) where
  slots : List α
  ptr : Nat
  deriving DecidableEq, Repr

namespace Table

/-- Write a value and advance the pointer, wrapping at the end. -/
def push (r : Table α) (x : α) : Table α where
  slots := r.slots.set r.ptr x
  ptr := (r.ptr + 1) % r.slots.length

/-- Write the values of a list, first to last. -/
def replay (r : Table α) (xs : List α) : Table α :=
  xs.foldl push r

/-- The pointer addresses a slot. -/
def InRange (r : Table α) : Prop :=
  r.ptr < r.slots.length

@[simp] theorem replay_nil (r : Table α) : r.replay [] = r := rfl

theorem replay_append (r : Table α) (xs ys : List α) :
    r.replay (xs ++ ys) = (r.replay xs).replay ys :=
  List.foldl_append

theorem replay_snoc (r : Table α) (xs : List α) (x : α) :
    r.replay (xs ++ [x]) = (r.replay xs).push x := by
  rw [replay_append]
  rfl

@[simp] theorem length_push (r : Table α) (x : α) : (r.push x).slots.length = r.slots.length :=
  List.length_set

@[simp] theorem length_replay (r : Table α) (xs : List α) :
    (r.replay xs).slots.length = r.slots.length := by
  induction xs generalizing r with
  | nil => rfl
  | cons x xs ih => exact (ih (r.push x)).trans (length_push r x)

theorem InRange.push {r : Table α} (h : r.InRange) (x : α) : (r.push x).InRange := by
  have hpos : 0 < r.slots.length := Nat.lt_of_le_of_lt (Nat.zero_le _) h
  show (r.ptr + 1) % r.slots.length < (r.slots.set r.ptr x).length
  rw [List.length_set]
  exact Nat.mod_lt _ hpos

/-- All slots back to one value, the pointer to the first. -/
def clear (zero : α) (r : Table α) : Table α where
  slots := r.slots.map fun _ => zero
  ptr := 0

/-- A table of `size` slots that holds nothing yet. -/
def blank (zero : α) (size : Nat) : Table α where
  slots := List.replicate size zero
  ptr := 0

theorem clear_eq_blank (zero : α) {r : Table α} {size : Nat} (h : r.slots.length = size) :
    r.clear zero = blank zero size := by
  unfold clear blank
  rw [List.map_const', h]

end Table

/-! ## Tables with a checkpoint -/

/-- A table that is written to, and the copy a rollback goes back to. -/
structure Checkpointed (α : Type) where
  recent : Table α
  committed : Table α

/-- The moves on a table with a checkpoint. -/
inductive Move (α : Type) where
  | write (x : α)
  | commit
  | rollback
  | clear

/-- One move: a write goes to the recent table, a commit takes it as the new checkpoint. -/
def Checkpointed.move (zero : α) (c : Checkpointed α) : Move α → Checkpointed α
  | .write x => { c with recent := c.recent.push x }
  | .commit => { c with committed := c.recent }
  | .rollback => { c with recent := c.committed }
  | .clear => ⟨c.recent.clear zero, c.committed.clear zero⟩

/-- What the moves mean: the values kept since the last clear, and those not yet decided on. -/
structure Log (α : Type) where
  kept : List α
  pending : List α

namespace Log

/-- The log that holds nothing. -/
def empty : Log α := ⟨[], []⟩

/-- One move: a commit keeps the pending values, a rollback discards them. -/
def move (l : Log α) : Move α → Log α
  | .write x => { l with pending := l.pending ++ [x] }
  | .commit => ⟨l.kept ++ l.pending, []⟩
  | .rollback => ⟨l.kept, []⟩
  | .clear => empty

/-- The log after a list of moves. -/
def run (moves : List (Move α)) : Log α := moves.foldl move empty

/-- One move, for the moves to keep so far and the writes of the batch not yet decided on. -/
def keep (k : List (Move α) × List (Move α)) : Move α → List (Move α) × List (Move α)
  | .write x => (k.1, k.2 ++ [.write x])
  | .commit => (k.1 ++ k.2 ++ [.commit], [])
  | .rollback => (k.1, [])
  | .clear => (k.1 ++ k.2 ++ [.clear], [])

/-- The moves that remain when every rollback goes, together with the writes it discards. -/
def withoutDiscarded (moves : List (Move α)) : List (Move α) :=
  let k := moves.foldl keep ([], [])
  k.1 ++ k.2

theorem run_snoc (moves : List (Move α)) (m : Move α) : run (moves ++ [m]) = (run moves).move m := by
  unfold run
  rw [List.foldl_append]
  rfl

/-- The moves kept and the writes pending, against the log of all moves. -/
structure Keeps (k : List (Move α) × List (Move α)) (l : Log α) : Prop where
  all : run (k.1 ++ k.2) = l
  kept : run k.1 = ⟨l.kept, []⟩

theorem Keeps.move {k : List (Move α) × List (Move α)} {l : Log α} (h : Keeps k l) (m : Move α) :
    Keeps (keep k m) (l.move m) := by
  cases m with
  | write x =>
      refine ⟨?_, h.kept⟩
      show run (k.1 ++ (k.2 ++ [.write x])) = _
      rw [← List.append_assoc, run_snoc, h.all]
  | commit =>
      have hall : run (k.1 ++ k.2 ++ [.commit]) = l.move .commit := by rw [run_snoc, h.all]
      exact ⟨(congrArg run (List.append_nil _)).trans hall, hall⟩
  | rollback => exact ⟨(congrArg run (List.append_nil _)).trans h.kept, h.kept⟩
  | clear =>
      have hall : run (k.1 ++ k.2 ++ [.clear]) = l.move .clear := by rw [run_snoc, h.all]
      exact ⟨(congrArg run (List.append_nil _)).trans hall, hall⟩

/-- **What a rollback discards might as well not have been written.** -/
theorem run_withoutDiscarded (moves : List (Move α)) : run (withoutDiscarded moves) = run moves := by
  have hfold : ∀ (moves : List (Move α)) (k : List (Move α) × List (Move α)) (l : Log α),
      Keeps k l → Keeps (moves.foldl keep k) (moves.foldl move l) := by
    intro moves
    induction moves with
    | nil => exact fun _ _ h => h
    | cons m moves ih => exact fun k l h => ih _ _ (h.move m)
  exact (hfold moves ([], []) empty ⟨rfl, rfl⟩).all

end Log

namespace Checkpointed

/-- A table and its checkpoint, both blank. -/
def blank (zero : α) (size : Nat) : Checkpointed α := ⟨.blank zero size, .blank zero size⟩

/-- The tables a log stands for: the checkpoint replays what was kept, the recent table all of
    it. -/
def ofLog (zero : α) (size : Nat) (l : Log α) : Checkpointed α :=
  ⟨(Table.blank zero size).replay (l.kept ++ l.pending), (Table.blank zero size).replay l.kept⟩

/-- One move on the tables is one move on the log. -/
theorem ofLog_move (zero : α) (size : Nat) (l : Log α) (m : Move α) :
    (ofLog zero size l).move zero m = ofLog zero size (l.move m) := by
  cases m with
  | write x =>
      show Checkpointed.mk (((Table.blank zero size).replay (l.kept ++ l.pending)).push x) _ = _
      rw [← Table.replay_snoc, List.append_assoc]
      rfl
  | commit => simp [ofLog, move, Log.move]
  | rollback => simp [ofLog, move, Log.move]
  | clear =>
      have hlength : (Table.blank zero size).slots.length = size := List.length_replicate
      simp [ofLog, move, Log.move, Log.empty, Table.clear_eq_blank, hlength]

/-- **The tables after a list of moves are those of the log of the moves.** -/
theorem run_eq (zero : α) (size : Nat) (moves : List (Move α)) :
    moves.foldl (move zero) (blank zero size) = ofLog zero size (Log.run moves) := by
  have hfold : ∀ (moves : List (Move α)) (l : Log α),
      moves.foldl (move zero) (ofLog zero size l) = ofLog zero size (moves.foldl Log.move l) := by
    intro moves
    induction moves with
    | nil => exact fun _ => rfl
    | cons m moves ih =>
        intro l
        rw [List.foldl_cons, ofLog_move, ih]
        rfl
  exact hfold moves Log.empty

end Checkpointed

end CircularLog
