/-
  File:      Ahasd/Lib/Window.lean
  Subject:   SLIDING WINDOWS OF A LOG. A library file: it names nothing of the program.

  * `push`: a value into a window of at most `n`, the oldest ones leaving;
  * `push_rtake`: the window of a log, pushed, is the window of the longer log;
  * `push_eq_self`: the windows a value cannot change.
-/
import Mathlib.Data.List.DropRight

namespace Window

variable {α : Type}

/-- Push a value into a window of at most `n` values: the oldest leave until there is room. -/
def push (n : Nat) (w : List α) (x : α) : List α :=
  w.drop (w.length + 1 - n) ++ [x]

/-- **A pushed window of a log is the window of the longer log.** -/
theorem push_rtake {n : Nat} (hn : 1 ≤ n) (l : List α) (x : α) :
    push n (l.rtake n) x = (l ++ [x]).rtake n := by
  obtain ⟨m, rfl⟩ := Nat.exists_eq_add_of_le' hn
  rw [List.rtake_concat_succ]
  unfold push List.rtake
  rw [List.length_drop, List.drop_drop]
  congr 2
  omega

theorem length_rtake_le (n : Nat) (l : List α) : (l.rtake n).length ≤ n := by
  unfold List.rtake
  rw [List.length_drop]
  omega

/-- A list that is its own tail with a value behind is made of that value. -/
theorem concat_eq_cons {a x : α} : ∀ {t : List α}, t ++ [x] = a :: t →
    a = x ∧ t = List.replicate t.length x
  | [], h => by
      cases h
      exact ⟨rfl, rfl⟩
  | b :: t, h => by
      obtain ⟨hb, ht⟩ := List.cons.inj h
      obtain ⟨hx, hrest⟩ := concat_eq_cons ht
      refine ⟨hb.symm.trans hx, ?_⟩
      rw [List.length_cons, List.replicate_succ, ← hrest, hx]

/-- **A value leaves a window as it is exactly when the window is full of it.** -/
theorem push_eq_self {n : Nat} (hn : 1 ≤ n) {w : List α} (hw : w.length ≤ n) {x : α} :
    push n w x = w ↔ w = List.replicate n x := by
  obtain ⟨m, rfl⟩ := Nat.exists_eq_add_of_le' hn
  constructor
  · intro h
    have hlength := congrArg List.length h
    unfold push at h hlength
    rw [List.length_append, List.length_drop, List.length_singleton] at hlength
    have hfull : w.length = m + 1 := by omega
    cases w with
    | nil => cases hfull
    | cons a t =>
        rw [hfull, Nat.add_sub_cancel_left] at h
        obtain ⟨ha, ht⟩ := concat_eq_cons (show t ++ [x] = a :: t from h)
        rw [List.length_cons, Nat.add_right_cancel_iff] at hfull
        rw [List.replicate_succ, ← hfull, ← ht, ha]
  · rintro rfl
    unfold push
    rw [List.length_replicate, Nat.add_sub_cancel_left, List.drop_replicate, Nat.add_sub_cancel,
      ← List.replicate_succ']

end Window
